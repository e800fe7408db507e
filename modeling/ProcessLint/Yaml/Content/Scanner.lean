import ProcessLint.Yaml.Content.Rejection

/-!
The state of the content's scanner and its smallest steps.

Lines also end at U+0085, U+2028 and U+2029. The first of these reads as a line feed, the other
two stand for themselves.
-/
namespace ProcessLint.Yaml.Content

def isBreak (c : Char) : Bool :=
  c = '\n' || c = '\r' || c = '\u0085' || c = '\u2028' || c = '\u2029'

def isBreakOrEnd (c : Char) : Bool := isBreak c || c = endMark

def isBlankOrEnd (c : Char) : Bool := isBlank c || isBreakOrEnd c

/-- Characters that a text may hold: no controls but tab and line breaks, and no code points that
are no characters. -/
def isPermitted (c : Char) : Bool :=
  let code := c.toNat
  code = 0x09 || code = 0x0A || code = 0x0D || (0x20 ≤ code && code ≤ 0x7E) || code = 0x85 ||
    (0xA0 ≤ code && code ≤ 0xD7FF) || (0xE000 ≤ code && code ≤ 0xFFFD) || 0x10000 ≤ code

/-- The bytes before the first character that is not permitted. -/
def forbiddenOffset? (offset : Nat) : List Char → Option Nat
  | [] => none
  | c :: rest => if isPermitted c then forbiddenOffset? (offset + c.utf8Size) rest else some offset

/-- A place where a key without `? ` may have started. -/
structure SimpleKey where
  possible : Bool
  required : Bool
  tokenNumber : Nat
  mark : Mark
  deriving Repr

def SimpleKey.none : SimpleKey := ⟨false, false, 0, ⟨0, 0, 0⟩⟩

structure Scanner where
  rest : List Char
  mark : Mark
  /-- Tokens read and not yet taken, the next one first. -/
  queue : List (Mark × Token)
  taken : Nat
  /-- One entry for the block context and one for each open flow collection, innermost first. -/
  keys : List SimpleKey
  keyAllowed : Bool
  /-- The column of the innermost block collection; -1 outside of all. -/
  indent : Int
  /-- The columns of the block collections around it, innermost first. -/
  outer : List Int
  flowDepth : Nat

def byteOrderMark : Char := '\ufeff'

namespace Scanner

def ofText (text : List Char) : Scanner where
  rest := text
  mark := .start
  queue := []
  taken := 0
  keys := [.none]
  keyAllowed := true
  indent := -1
  outer := []
  flowDepth := 0

def peek (s : Scanner) (n : Nat) : Char := s.rest.getD n endMark

def current (s : Scanner) : Char := s.rest.headD endMark

def column (s : Scanner) : Int := s.mark.column

end Scanner

abbrev Scan := StateT Scanner (Except Rejection)

namespace Scan

/-- Reports a problem at the present mark. -/
def fail (problem : Problem) (context : Context) (start : Mark) : Scan α := do
  throw (.malformed problem (← get).mark (some (context, start)))

def failHere (problem : Problem) : Scan α := do throw (.malformed problem (← get).mark none)

def current : Scan Char := return (← get).current

def peek (n : Nat) : Scan Char := return (← get).peek n

def mark : Scan Mark := return (← get).mark

/-- Moves over characters of one line. -/
def skipRun (length : Nat) : Scan Unit :=
  modify fun s => { s with
    rest := s.rest.drop length
    mark := { s.mark with index := s.mark.index + length, column := s.mark.column + length } }

def skip : Scan Unit := skipRun 1

/-- Moves over a line break and gives the character it reads as; `none` if there is no break. -/
def readBreak : Scan (Option Char) := do
  let s ← get
  match s.rest with
  | '\r' :: '\n' :: rest =>
      set { s with rest, mark := s.mark.nextLine 2 }
      return some '\n'
  | c :: rest =>
      if isBreak c then
        set { s with rest, mark := s.mark.nextLine 1 }
        return some (if c = '\u2028' || c = '\u2029' then c else '\n')
      else return none
  | [] => return none

def skipBreak : Scan Unit := do
  let _ ← readBreak

/-- Moves over a run of characters of a class and gives it. -/
def takeRun (p : Char → Bool) : Scan (List Char) := do
  let run := (← get).rest.takeWhile p
  skipRun run.length
  return run

def skipBlanks : Scan Unit := do
  let _ ← takeRun isBlank

def skipToBreak : Scan Unit := do
  let _ ← takeRun fun c => !isBreakOrEnd c

def repeatStep (step : Scan Bool) : Nat → Scan Unit
  | 0 => pure ()
  | n + 1 => do if ← step then repeatStep step n

/-- Repeats a step that reads a character each time. -/
def loop (step : Scan Bool) : Scan Unit := do
  repeatStep step ((← get).rest.length + 2)

def allowKey (allowed : Bool) : Scan Unit := modify fun s => { s with keyAllowed := allowed }

def push (mark : Mark) (token : Token) : Scan Unit :=
  modify fun s => { s with queue := s.queue ++ [(mark, token)] }

/-- Puts a token before the one that has number `tokenNumber`. -/
def insert (tokenNumber : Nat) (mark : Mark) (token : Token) : Scan Unit :=
  modify fun s => { s with queue := s.queue.insertIdx (tokenNumber - s.taken) (mark, token) }

/-- Gives up the innermost possible key. -/
def dropKey : Scan Unit := do
  let s ← get
  match s.keys with
  | [] => pure ()
  | key :: keys =>
      if key.possible && key.required then fail .colonAfterKey .simpleKey key.mark
      set { s with keys := { key with possible := false } :: keys }

/-- Notes that a key without `? ` may start here. -/
def noteKey : Scan Unit := do
  if (← get).keyAllowed then
    dropKey
    modify fun s =>
      let required := s.flowDepth = 0 && s.indent = s.column
      { s with keys := ⟨true, required, s.taken + s.queue.length, s.mark⟩ :: s.keys.tail }

def maxKeyLength : Nat := 1024

/-- Gives up possible keys that the text has run past, the outermost first. -/
def dropStaleKeys : Scan Unit := do
  let s ← get
  let isStale (key : SimpleKey) : Bool :=
    key.possible &&
      (key.mark.line < s.mark.line || key.mark.index + maxKeyLength < s.mark.index)
  match s.keys.reverse.find? fun key => isStale key && key.required with
  | some key => fail .colonAfterKey .simpleKey key.mark
  | none =>
      set { s with
        keys := s.keys.map fun key =>
          if isStale key then { key with possible := false } else key }

/-- Opens a block collection at a column if that is deeper than the present one. -/
def openBlock (column : Nat) (before : Option Nat) (token : Token) (mark : Mark) : Scan Unit := do
  let s ← get
  if s.flowDepth = 0 && s.indent < column then
    set { s with indent := (column : Int), outer := s.indent :: s.outer }
    match before with
    | some tokenNumber => insert tokenNumber mark token
    | none => push mark token

/-- Closes all block collections deeper than a column. -/
def closeBlocks (column : Int) : Scan Unit := do
  if (← get).flowDepth = 0 then
    modify fun s =>
      let rec go (indent : Int) (outer : List Int) (queue : List (Mark × Token)) :=
        match outer with
        | [] => (indent, outer, queue)
        | top :: rest =>
            if column < indent then go top rest (queue ++ [(s.mark, .blockEnd)])
            else (indent, outer, queue)
      let (indent, outer, queue) := go s.indent s.outer s.queue
      { s with indent, outer, queue }

end Scan

end ProcessLint.Yaml.Content
