import ProcessLint.Yaml.Outline.Malformed

/-!
The state of the outline's scanner and its smallest steps: moving over characters, blanks and
comments, and keeping the open indentations and the places where a simple key may have started.

Lines end at a line feed, at a carriage return, or at both together. Other characters that
Unicode counts as line breaks are ordinary here.
-/
namespace ProcessLint.Yaml.Outline

def isBreak (c : Char) : Bool := c = '\n' || c = '\r'

/-- A line break or the end of the text. -/
def isBreakOrEnd (c : Char) : Bool := isBreak c || c = endMark

def isBlankOrEnd (c : Char) : Bool := isBlank c || isBreakOrEnd c

/-- An indentation that was left for a deeper one. -/
structure Indentation where
  column : Int
  /-- Whether the deeper one is a block collection, which a token has to close. -/
  isCollection : Bool
  deriving Repr

/-- A place where a key without `? ` may have started. -/
structure SimpleKey where
  possible : Bool
  /-- Nothing but a key can stand here. -/
  required : Bool
  tokenNumber : Nat
  mark : Mark
  deriving Repr

def SimpleKey.none : SimpleKey := ⟨false, false, 0, ⟨0, 0, 0⟩⟩

structure Scanner where
  rest : List Char
  mark : Mark
  /-- Whether only blanks have been read on this line. -/
  atLineStart : Bool
  /-- Tokens read and not yet taken, the next one first. -/
  queue : List (Mark × Token)
  /-- How many tokens have been taken. -/
  taken : Nat
  /-- One entry for the block context and one for each open flow collection, innermost first. -/
  keys : List SimpleKey
  keyAllowed : Bool
  /-- The column of the innermost block collection, or one more if its content must be deeper;
  -1 outside of all. -/
  indent : Int
  /-- The indentations around the present one, innermost first. -/
  outer : List Indentation
  flowDepth : Nat
  /-- Whether a flow mapping or an explicit key has been opened since the last pair without
  braces was closed. -/
  inFlowMapping : Bool
  /-- Whether the last colon stood in a pair without braces that is still open. There is one such
  flag for all open flow collections: a colon further inside resets it, and any closing bracket
  or comma closes the pair. -/
  barePair : Bool
  /-- Where a colon may directly touch the value behind it. -/
  touchingColonAt : Nat

namespace Scanner

def ofText (text : List Char) : Scanner where
  rest := text
  mark := .start
  atLineStart := true
  queue := []
  taken := 0
  keys := [.none]
  keyAllowed := true
  indent := -1
  outer := []
  flowDepth := 0
  inFlowMapping := false
  barePair := false
  touchingColonAt := 0

/-- The character `n` places ahead; `endMark` beyond the text. -/
def peek (s : Scanner) (n : Nat) : Char := s.rest.getD n endMark

def current (s : Scanner) : Char := s.rest.headD endMark

def column (s : Scanner) : Int := s.mark.column

end Scanner

abbrev Scan := StateT Scanner (Except Malformed)

namespace Scan

def failAt (mark : Mark) (fault : Fault) : Scan α := throw ⟨mark, fault⟩

def fail (fault : Fault) : Scan α := do failAt (← get).mark fault

def current : Scan Char := return (← get).current

def peek (n : Nat) : Scan Char := return (← get).peek n

def mark : Scan Mark := return (← get).mark

/-- Moves over a blank. -/
def skipBlank : Scan Unit :=
  modify fun s => { s with rest := s.rest.tail, mark := s.mark.next }

/-- Moves over a character that is neither blank nor break. -/
def skipInk : Scan Unit :=
  modify fun s => { s with rest := s.rest.tail, mark := s.mark.next, atLineStart := false }

def skipInks : Nat → Scan Unit
  | 0 => pure ()
  | n + 1 => do skipInk; skipInks n

/-- Moves over a line break, if there is one here. -/
def skipBreak : Scan Unit :=
  modify fun s =>
    match s.rest with
    | '\r' :: '\n' :: rest => { s with rest, mark := s.mark.nextLine 2, atLineStart := true }
    | '\r' :: rest | '\n' :: rest => { s with rest, mark := s.mark.nextLine 1, atLineStart := true }
    | _ => s

/-- Moves to the end of the line. -/
def skipToBreak : Scan Unit :=
  modify fun s =>
    let line := s.rest.takeWhile fun c => !isBreakOrEnd c
    { s with
      rest := s.rest.drop line.length
      mark := { s.mark with
        index := s.mark.index + line.length
        column := s.mark.column + line.length }
      atLineStart := s.atLineStart && line.isEmpty }

/-- Repeats a step that says whether it should be repeated. Each step reads a character, so the
length of the text bounds their number. -/
def repeatStep (step : Scan Bool) : Nat → Scan Unit
  | 0 => pure ()
  | n + 1 => do if ← step then repeatStep step n

def loop (step : Scan Bool) : Scan Unit := do
  repeatStep step ((← get).rest.length + 2)

/-- What blanks up to the next content or the end of the line were. -/
structure Blanks where
  spaces : Bool
  tabs : Bool

/-- Moves over blanks and a comment up to the next content or the end of the line. A comment must
have a blank before it. -/
def skipBlanks (tabsToo : Bool) : Scan Blanks := do
  let blanks := (← get).rest.takeWhile fun c => c = ' ' || (tabsToo && c = '\t')
  modify fun s => { s with
    rest := s.rest.drop blanks.length
    mark := { s.mark with
      index := s.mark.index + blanks.length
      column := s.mark.column + blanks.length } }
  if (← current) = '#' then
    if blanks.isEmpty then fail .glued
    skipToBreak
  return ⟨blanks.contains ' ', blanks.contains '\t'⟩

def allowKey : Scan Unit := modify fun s => { s with keyAllowed := true }

def forbidKey : Scan Unit := modify fun s => { s with keyAllowed := false }

def push (mark : Mark) (token : Token) : Scan Unit :=
  modify fun s => { s with queue := s.queue ++ [(mark, token)] }

/-- Puts a token before the one that has number `tokenNumber`. -/
def insert (tokenNumber : Nat) (mark : Mark) (token : Token) : Scan Unit :=
  modify fun s => { s with queue := s.queue.insertIdx (tokenNumber - s.taken) (mark, token) }

/-- Notes that a key without `? ` may start here. -/
def noteKey : Scan Unit :=
  modify fun s =>
    if s.keyAllowed then
      let required := s.flowDepth = 0 && s.indent = s.column && s.outer.head?.any (·.isCollection)
      { s with keys := ⟨true, required, s.taken + s.queue.length, s.mark⟩ :: s.keys.tail }
    else s

/-- Gives up the innermost possible key. -/
def dropKey : Scan Unit := do
  let s ← get
  match s.keys with
  | [] => pure ()
  | key :: keys =>
      if key.possible && key.required then fail .keyExpected
      set { s with keys := { key with possible := false } :: keys }

/-- Longest key without `? `, in characters. -/
def maxKeyLength : Nat := 1024

/-- Gives up possible keys that the text has run past: outside of flow collections a key is on
one line and not too long. -/
def dropStaleKeys : Scan Unit := do
  let s ← get
  if s.flowDepth = 0 then
    let isStale (key : SimpleKey) : Bool :=
      key.possible &&
        (key.mark.line < s.mark.line || key.mark.index + maxKeyLength < s.mark.index)
    if s.keys.any fun key => isStale key && key.required then fail .keyWithoutColon
    set { s with
      keys := s.keys.map fun key => if isStale key then { key with possible := false } else key }

/-- Opens a block collection at a column if it is deeper than the present indentation. Its token
goes to the end of the queue or before the token of its first key. -/
def openBlock (column : Nat) (before : Option Nat) (token : Token) (mark : Mark) : Scan Unit := do
  if (← get).flowDepth = 0 then
    modify fun s =>
      match s.outer with
      | ⟨outerColumn, false⟩ :: outer =>
          if s.indent ≤ column then { s with indent := outerColumn, outer } else s
      | _ => s
    let s ← get
    if s.indent < column then
      set { s with indent := (column : Int), outer := ⟨s.indent, true⟩ :: s.outer }
      match before with
      | some tokenNumber => insert tokenNumber mark token
      | none => push mark token

/-- Closes all block collections deeper than a column. -/
def closeBlocks (column : Int) : Scan Unit := do
  if (← get).flowDepth = 0 then
    modify fun s =>
      let rec go (indent : Int) (outer : List Indentation) (queue : List (Mark × Token)) :=
        match outer with
        | [] => (indent, outer, queue)
        | top :: rest =>
            if column < indent then
              go top.column rest (if top.isCollection then queue ++ [(s.mark, .blockEnd)] else queue)
            else (indent, outer, queue)
      let (indent, outer, queue) := go s.indent s.outer s.queue
      { s with indent, outer, queue }

/-- Requires what follows in this block collection to be deeper than its column. -/
def deepen : Scan Unit :=
  modify fun s =>
    if s.flowDepth = 0 && s.outer.head?.any (·.isCollection) then
      { s with indent := s.indent + 1, outer := ⟨s.indent, false⟩ :: s.outer }
    else s

/-- Takes back what `deepen` required. -/
def undeepen : Scan Unit :=
  modify fun s =>
    let rec go (indent : Int) : List Indentation → Int × List Indentation
      | ⟨column, false⟩ :: outer => go column outer
      | outer => (indent, outer)
    let (indent, outer) := go s.indent s.outer
    { s with indent, outer }

end Scan

end ProcessLint.Yaml.Outline
