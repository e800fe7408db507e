import ProcessLint.Text.Digits
import ProcessLint.Yaml.Outline.Scanner

/-!
Scalars of the outline: plain, quoted and block. In the first two a single line break reads as a
space, and of several breaks the first is dropped.
-/
namespace ProcessLint.Yaml.Outline.Scan

/-- Moves over characters of one line that are no blanks. -/
def skipRun (length : Nat) : Scan Unit :=
  modify fun s => { s with
    rest := s.rest.drop length
    mark := { s.mark with index := s.mark.index + length, column := s.mark.column + length }
    atLineStart := s.atLineStart && length = 0 }

def isDocumentIndicator (stem : Char) (s : Scanner) : Bool :=
  s.mark.column = 0 && s.peek 0 = stem && s.peek 1 = stem && s.peek 2 = stem &&
    isBlankOrEnd (s.peek 3)

/-- Whether a line with three dashes or three points starts here. -/
def atDocumentIndicator (s : Scanner) : Bool :=
  isDocumentIndicator '-' s || isDocumentIndicator '.' s

/-- Text of a scalar that is being read, and the blanks and breaks behind it that count only if
more text follows. -/
structure Folding where
  /-- The text so far, last character first. -/
  reversed : List Char
  /-- Blanks on the line of the last text, last one first. -/
  blanks : List Char
  /-- Whether a line of the scalar has ended since the last text. -/
  lineEnded : Bool
  /-- Whether the break that ended it counts; one behind a backslash does not. -/
  breakCounts : Bool
  /-- Breaks after that one. -/
  breaks : Nat

namespace Folding

def empty : Folding := ⟨[], [], false, false, 0⟩

/-- Joins the blanks and breaks to the text. -/
def settle (f : Folding) : Folding :=
  let gap :=
    if f.lineEnded then
      if f.breaks = 0 then (if f.breakCounts then [' '] else []) else List.replicate f.breaks '\n'
    else f.blanks
  { empty with reversed := gap ++ f.reversed }

def add (f : Folding) (run : List Char) : Folding :=
  { f with reversed := run.reverse ++ f.reversed }

def addBlank (f : Folding) (c : Char) : Folding :=
  if f.lineEnded then f else { f with blanks := c :: f.blanks }

def addBreak (f : Folding) : Folding :=
  if f.lineEnded then { f with breaks := f.breaks + 1 }
  else { f with blanks := [], lineEnded := true, breakCounts := true }

def text (f : Folding) : String := String.ofList f.reversed.reverse

end Folding

/-- The longest run of characters that a plain scalar can hold on one line without blanks. -/
def plainRun (inFlow : Bool) : List Char → List Char
  | [] => []
  | c :: rest =>
      let next := rest.headD endMark
      if isBlankOrEnd c then []
      else if c = ':' && (isBlankOrEnd next || (inFlow && isFlow next)) then []
      else if inFlow && isFlow c then []
      else c :: plainRun inFlow rest

/-- Blanks and breaks between the words of a plain scalar. A tab may stand where indentation
belongs only on a line without content. -/
def plainGap (indent : Int) (start : Mark) : Nat → Folding → Scan Folding
  | 0, f => pure f
  | n + 1, f => do
      let c ← current
      if isBlank c then
        if f.lineEnded && (← get).column < indent && c = '\t' then
          let _ ← skipBlanks true
          if !isBreakOrEnd (← current) then failAt start .plainTab
          plainGap indent start n f
        else
          skipBlank
          plainGap indent start n (f.addBlank c)
      else if isBreak c then
        skipBreak
        plainGap indent start n f.addBreak
      else pure f

def plainWords (indent : Int) (start : Mark) : Nat → Folding → Scan Folding
  | 0, f => pure f
  | n + 1, f => do
      let s ← get
      let inFlow := 0 < s.flowDepth
      if atDocumentIndicator s || s.current = '#' then return f
      if inFlow && s.current = '-' && isFlow (s.peek 1) then fail .plainDash
      let run := plainRun inFlow s.rest
      skipRun run.length
      let f := if run.isEmpty then f else f.settle.add run
      let c ← current
      if !(isBlank c || isBreak c) then return f
      let f ← plainGap indent start (s.rest.length + 1) f
      if !inFlow && (← get).column < indent then return f
      plainWords indent start n f

def scanPlain : Scan Unit := do
  undeepen
  let s ← get
  let indent := s.indent + 1
  if 0 < s.flowDepth && s.column < indent then failAt s.mark .plainInFlowIndentation
  let f ← plainWords indent s.mark (s.rest.length + 1) .empty
  if f.lineEnded then allowKey
  push s.mark (.scalar .plain f.text)

/-- The character that the escape at the front stands for, and the length of the escape. -/
def readEscape (start : Mark) : Scan (Char × Nat) := do
  let s ← get
  let letter := s.peek 1
  match escapedChar? letter with
  | some c => return (c, 2)
  | none =>
      match escapeWidth? letter with
      | none => failAt start .unknownEscape
      | some width =>
          let digits := (s.rest.drop 2).take width
          if digits.length < width then failAt start .escapeDigits
          match Text.numberOf? 16 digits with
          | none => failAt start .escapeDigits
          | some code =>
              match charOfCode? code with
              | none => failAt start .escapeCode
              | some c => return (c, 2 + width)

/-- A run without blanks inside quotes. It ends before the closing quote, or behind a break that
a backslash escapes. -/
def quotedRun (quote : Char) (start : Mark) : Nat → Folding → Scan Folding
  | 0, f => pure f
  | n + 1, f => do
      let s ← get
      let c := s.current
      if isBlankOrEnd c then return f
      if c = quote then
        if quote = '\'' && s.peek 1 = '\'' then
          skipInks 2
          quotedRun quote start n (f.add ['\''])
        else return f
      else if c = '\\' && quote = '"' then
        if isBreak (s.peek 1) then
          skipInk
          skipBreak
          return { f with lineEnded := true, breakCounts := false }
        else
          let (c, width) ← readEscape start
          skipInks width
          quotedRun quote start n (f.add [c])
      else
        skipInk
        quotedRun quote start n (f.add [c])

def quotedGap : Nat → Folding → Scan Folding
  | 0, f => pure f
  | n + 1, f => do
      let s ← get
      let c := s.current
      if isBlank c then
        if f.lineEnded && c = '\t' && s.column < s.indent then fail .quotedTab
        skipBlank
        quotedGap n (f.addBlank c)
      else if isBreak c then
        skipBreak
        quotedGap n f.addBreak
      else pure f

def quotedWords (quote : Char) (start : Mark) : Nat → Folding → Scan Folding
  | 0, f => pure f
  | n + 1, f => do
      let s ← get
      if atDocumentIndicator s then failAt start .quotedIndicator
      if s.current = endMark then failAt start .quotedEnd
      if s.column < s.indent then failAt start .quotedIndentation
      let f ← quotedRun quote start (s.rest.length + 1) f
      if (← current) = quote then return f
      let f ← quotedGap (s.rest.length + 1) f
      quotedWords quote start n f.settle

/-- A quoted scalar. Behind it may stand a comment, the end of the line, what separates items in
a flow collection, or a colon; outside of flow collections the colon must be on its line. -/
def scanQuoted (quote : Char) (style : ScalarStyle) : Scan (Mark × Token) := do
  let s ← get
  skipInk
  let f ← quotedWords quote s.mark (s.rest.length + 1) .empty
  skipInk
  let _ ← skipBlanks true
  let behind ← get
  let c := behind.current
  let inFlow := 0 < behind.flowDepth
  let ends :=
    isBreakOrEnd c || (inFlow && (c = ',' || c = '\x7d' || c = ']' || c = ':')) ||
      (c = ':' && s.mark.line = behind.mark.line)
  if !ends then fail .quotedTrail
  return (s.mark, .scalar style f.text)

inductive Chomping where
  | clip
  | strip
  | keep
  deriving DecidableEq

def chomping? : Scan (Option Chomping) := do
  match ← current with
  | '+' => skipInk; return some .keep
  | '-' => skipInk; return some .strip
  | _ => return none

def indentationIndicator (start : Mark) : Scan Nat := do
  let c ← current
  if Text.isDigit c then
    if c = '0' then failAt start .zeroIndentation
    skipInk
    return c.toNat - 48
  else return 0

/-- How a block scalar ends and how much deeper it is, written in either order; zero stands for
an indentation that is read off the text. -/
def blockHeader (start : Mark) : Scan (Chomping × Nat) := do
  match ← chomping? with
  | some chomping => return (chomping, ← indentationIndicator start)
  | none =>
      let increment ← indentationIndicator start
      if increment = 0 then return (.clip, 0)
      return ((← chomping?).getD .clip, increment)

/-- Leading empty lines when the indentation is not known: gives the deepest column reached and
the number of breaks. -/
def blockLead : Nat → Nat → Nat → Scan (Nat × Nat)
  | 0, column, breaks => pure (column, breaks)
  | n + 1, column, breaks => do
      let spaces := (← get).rest.takeWhile (· = ' ')
      modify fun s => { s with
        rest := s.rest.drop spaces.length
        mark := { s.mark with
          index := s.mark.index + spaces.length
          column := s.mark.column + spaces.length } }
      let s ← get
      let column := max column s.mark.column
      if isBreak s.current then
        skipBreak
        blockLead n column (breaks + 1)
      else return (column, breaks)

/-- Indentation up to a column and empty lines; gives the number of breaks. -/
def blockIndentation (indent : Nat) : Nat → Nat → Scan Nat
  | 0, breaks => pure breaks
  | n + 1, breaks => do
      modify fun s =>
        let spaces := (s.rest.take (indent - s.mark.column)).takeWhile (· = ' ')
        { s with
          rest := s.rest.drop spaces.length
          mark := { s.mark with
            index := s.mark.index + spaces.length
            column := s.mark.column + spaces.length } }
      if isBreak (← current) then
        skipBreak
        blockIndentation indent n (breaks + 1)
      else return breaks

/-- Content of a block scalar that is being read. -/
structure BlockText where
  reversed : List Char
  /-- Whether the last line ended with a break. -/
  lineEnded : Bool
  /-- Empty lines after it. -/
  breaks : Nat
  /-- Whether the last line started with a blank. -/
  startedBlank : Bool

/-- Lines of a block scalar at a column. In a folded scalar a break between two lines that start
without a blank reads as a space. -/
def blockLines (literal : Bool) (indent : Nat) : Nat → BlockText → Scan BlockText
  | 0, b => pure b
  | n + 1, b => do
      let s ← get
      if s.mark.column ≠ indent || s.current = endMark then return b
      if indent = 0 && isDocumentIndicator '.' s then return b
      let startsBlank := isBlank s.current
      let gap :=
        if !literal && b.lineEnded && !b.startedBlank && !startsBlank then
          if b.breaks = 0 then [' '] else List.replicate b.breaks '\n'
        else List.replicate ((if b.lineEnded then 1 else 0) + b.breaks) '\n'
      let line := s.rest.takeWhile fun c => !isBreakOrEnd c
      skipRun line.length
      let reversed := line.reverse ++ gap ++ b.reversed
      if (← current) = endMark then return ⟨reversed, false, 0, startsBlank⟩
      skipBreak
      let breaks ← blockIndentation indent (s.rest.length + 1) 0
      blockLines literal indent n ⟨reversed, true, breaks, startsBlank⟩

/-- A literal or folded scalar, from its indicator on. -/
def scanBlock (literal : Bool) : Scan Unit := do
  let style : ScalarStyle := if literal then .literal else .folded
  let start ← mark
  skipInk
  undeepen
  let (chomping, increment) ← blockHeader start
  let _ ← skipBlanks true
  if !isBreakOrEnd (← current) then failAt start .blockScalarHeader
  let hasBreak := isBreak (← current)
  skipBreak
  if (← current) = '\t' then failAt start .blockScalarTab
  let fuel := (← get).rest.length + 1
  let parent := (← get).indent
  let (indent, breaks) ←
    if increment = 0 then do
      let (column, breaks) ← blockLead fuel 0 0
      let indent := max column (parent + 1).toNat
      pure (if 0 < parent then max indent 1 else indent, breaks)
    else do
      let indent := if 0 ≤ parent then parent.toNat + increment else increment
      pure (indent, ← blockIndentation indent fuel 0)
  let s ← get
  if s.current = endMark then
    let text :=
      match chomping with
      | .strip => []
      | .clip => if s.mark.line = start.line then [] else if hasBreak then ['\n'] else []
      | .keep =>
          if s.mark.line = start.line then []
          else if breaks = 0 then (if hasBreak then ['\n'] else [])
          else List.replicate breaks '\n'
    push start (.scalar style (String.ofList text))
  else
    if s.mark.column < indent && parent < s.column then fail .blockScalarIndentation
    let b ← blockLines literal indent fuel ⟨[], false, breaks, false⟩
    let after ← get
    let atEnd := after.current = endMark && max indent 1 ≤ after.mark.column
    let tail :=
      match chomping with
      | .strip => 0
      | .clip => (if b.lineEnded then 1 else 0) + (if atEnd then 1 else 0)
      | .keep => (if b.lineEnded then 1 else 0) + (if atEnd then 1 else 0) + b.breaks
    push s.mark (.scalar style (String.ofList (b.reversed.reverse ++ List.replicate tail '\n')))

end ProcessLint.Yaml.Outline.Scan
