import ProcessLint.Text.Digits
import ProcessLint.Yaml.Content.Scanner

/-!
Scalars of the content: plain, quoted and block. Line feeds fold; the separators U+2028 and
U+2029 are kept.
-/
namespace ProcessLint.Yaml.Content.Scan

def isDocumentIndicator (stem : Char) (s : Scanner) : Bool :=
  s.mark.column = 0 && s.peek 0 = stem && s.peek 1 = stem && s.peek 2 = stem &&
    isBlankOrEnd (s.peek 3)

def atDocumentIndicator (s : Scanner) : Bool :=
  isDocumentIndicator '-' s || isDocumentIndicator '.' s

/-- Text of a scalar that is being read, and the blanks and breaks behind it that count only if
more text follows. -/
structure Folding where
  /-- The text so far, last character first. -/
  reversed : List Char
  /-- Blanks on the line of the last text, last one first. -/
  blanks : List Char
  /-- Whether a line of the scalar has ended since the last text. -/
  lineEnded : Bool
  /-- The break that ended it, unless that was behind a backslash. -/
  lead : Option Char
  /-- Breaks after that one, last one first. -/
  breaks : List Char

namespace Folding

def empty : Folding := ⟨[], [], false, none, []⟩

/-- Joins the blanks and breaks to the text. -/
def settle (f : Folding) : Folding :=
  let gap :=
    if f.lineEnded then
      match f.lead with
      | some '\n' => if f.breaks.isEmpty then [' '] else f.breaks
      | some c => f.breaks ++ [c]
      | none => f.breaks
    else f.blanks
  { empty with reversed := gap ++ f.reversed }

def add (f : Folding) (run : List Char) : Folding :=
  { f with reversed := run.reverse ++ f.reversed }

def addBlank (f : Folding) (c : Char) : Folding :=
  if f.lineEnded then f else { f with blanks := c :: f.blanks }

def addBreak (f : Folding) (c : Char) : Folding :=
  if f.lineEnded then { f with breaks := c :: f.breaks }
  else { f with blanks := [], lineEnded := true, lead := some c }

def text (f : Folding) : String := String.ofList f.reversed.reverse

end Folding

/-- Blanks and breaks between the words of a scalar. -/
def gap (checkTab : Folding → Scan Unit) : Nat → Folding → Scan Folding
  | 0, f => pure f
  | n + 1, f => do
      let c ← current
      if isBlank c then
        checkTab f
        skip
        gap checkTab n (f.addBlank c)
      else
        match ← readBreak with
        | some c => gap checkTab n (f.addBreak c)
        | none => pure f

/-- What a colon may not stand directly before in a flow collection. -/
def isColonBarrier (c : Char) : Bool := isFlow c || c = '?'

/-- The longest run of characters that a plain scalar can hold on one line without blanks. -/
def plainRun (inFlow : Bool) : List Char → List Char
  | [] => []
  | c :: rest =>
      let next := rest.headD endMark
      if isBlankOrEnd c then []
      else if c = ':' && (isBlankOrEnd next || (inFlow && isColonBarrier next)) then []
      else if inFlow && isFlow c then []
      else c :: plainRun inFlow rest

def plainWords (indent : Int) (start : Mark) : Nat → Folding → Scan Folding
  | 0, f => pure f
  | n + 1, f => do
      let s ← get
      let inFlow := 0 < s.flowDepth
      if atDocumentIndicator s || s.current = '#' then return f
      let run := plainRun inFlow s.rest
      skipRun run.length
      let f := if run.isEmpty then f else f.settle.add run
      let after ← get
      let c := after.current
      if inFlow && c = ':' && isColonBarrier (after.peek 1) then
        fail .flowColon .plainScalar start
      if !(isBlank c || isBreak c) then return f
      let checkTab (f : Folding) : Scan Unit := do
        let s ← get
        if f.lineEnded && s.column < indent && s.current = '\t' then
          fail .plainTab .plainScalar start
      let f ← gap checkTab (s.rest.length + 1) f
      if !inFlow && (← get).column < indent then return f
      plainWords indent start n f

def scanPlain : Scan Unit := do
  let s ← get
  let f ← plainWords (s.indent + 1) s.mark (s.rest.length + 1) .empty
  if f.lineEnded then allowKey true
  push s.mark (.scalar .plain f.text)

/-- The character that the escape at the front stands for. -/
def readEscape (start : Mark) : Scan Char := do
  let letter ← peek 1
  match escapedChar? letter with
  | some c =>
      skipRun 2
      return c
  | none =>
      match escapeWidth? letter with
      | none => fail .unknownEscape .quotedEscape start
      | some width =>
          skipRun 2
          let digits := (← get).rest.take width
          if digits.length < width then fail .escapeDigits .quotedEscape start
          match Text.numberOf? 16 digits with
          | none => fail .escapeDigits .quotedEscape start
          | some code =>
              match charOfCode? code with
              | none => fail .escapeCode .quotedEscape start
              | some c =>
                  skipRun width
                  return c

/-- A run without blanks inside quotes. -/
def quotedRun (quote : Char) (start : Mark) : Nat → Folding → Scan Folding
  | 0, f => pure f
  | n + 1, f => do
      let s ← get
      let c := s.current
      if isBlankOrEnd c then return f
      if c = quote then
        if quote = '\'' && s.peek 1 = '\'' then
          skipRun 2
          quotedRun quote start n (f.add ['\''])
        else return f
      else if c = '\\' && quote = '"' then
        if isBreak (s.peek 1) then
          skip
          skipBreak
          return { f with lineEnded := true, lead := none }
        else
          let c ← readEscape start
          quotedRun quote start n (f.add [c])
      else
        skip
        quotedRun quote start n (f.add [c])

def quotedWords (quote : Char) (start : Mark) : Nat → Folding → Scan Folding
  | 0, f => pure f
  | n + 1, f => do
      let s ← get
      if atDocumentIndicator s then fail .quotedIndicator .quotedScalar start
      if s.current = endMark then fail .quotedEnd .quotedScalar start
      let f ← quotedRun quote start (s.rest.length + 1) f
      if (← current) = quote then return f
      let f ← gap (fun _ => pure ()) (s.rest.length + 1) f
      quotedWords quote start n f.settle

def scanQuoted (quote : Char) (style : ScalarStyle) : Scan Unit := do
  let s ← get
  skip
  let f ← quotedWords quote s.mark (s.rest.length + 1) .empty
  skip
  push s.mark (.scalar style f.text)

inductive Chomping where
  | clip
  | strip
  | keep
  deriving DecidableEq

def chomping? : Scan (Option Chomping) := do
  match ← current with
  | '+' => skip; return some .keep
  | '-' => skip; return some .strip
  | _ => return none

def indentationIndicator (start : Mark) : Scan Nat := do
  let c ← current
  if Text.isDigit c then
    if c = '0' then fail .zeroIndentation .blockScalar start
    skip
    return c.toNat - 48
  else return 0

def blockHeader (start : Mark) : Scan (Chomping × Nat) := do
  match ← chomping? with
  | some chomping => return (chomping, ← indentationIndicator start)
  | none =>
      let increment ← indentationIndicator start
      if increment = 0 then return (.clip, 0)
      return ((← chomping?).getD .clip, increment)

/-- Indentation and empty lines before a content line. The indentation is `none` while it is not
known; gives the deepest column reached and the breaks, last one first. -/
def blockIndentation (indent : Option Nat) (start : Mark) :
    Nat → Nat → List Char → Scan (Nat × List Char)
  | 0, column, breaks => pure (column, breaks)
  | n + 1, column, breaks => do
      let s ← get
      let reach :=
        match indent with
        | some indent => s.rest.take (indent - s.mark.column)
        | none => s.rest
      skipRun (reach.takeWhile (· = ' ')).length
      let s ← get
      let column := max column s.mark.column
      if s.current = '\t' && indent.all (s.mark.column < ·) then
        fail .blockScalarTab .blockScalar start
      match ← readBreak with
      | some c => blockIndentation indent start n column (c :: breaks)
      | none => return (column, breaks)

/-- Content of a block scalar that is being read. -/
structure BlockText where
  reversed : List Char
  /-- The break behind the last line. -/
  lead : Option Char
  /-- Breaks of the empty lines after it, last one first. -/
  breaks : List Char
  /-- Whether the last line started with a blank. -/
  startedBlank : Bool

/-- Lines of a block scalar at a column. In a folded scalar a line feed between two lines that
start without a blank reads as a space. -/
def blockLines (literal : Bool) (indent : Nat) (start : Mark) : Nat → BlockText → Scan BlockText
  | 0, b => pure b
  | n + 1, b => do
      let s ← get
      if s.mark.column ≠ indent || s.current = endMark then return b
      let startsBlank := isBlank s.current
      let gap :=
        if !literal && b.lead = some '\n' && !b.startedBlank && !startsBlank then
          if b.breaks.isEmpty then [' '] else b.breaks
        else b.breaks ++ b.lead.toList
      let line ← takeRun fun c => !isBreakOrEnd c
      let lead ← readBreak
      let (_, breaks) ← blockIndentation (some indent) start (s.rest.length + 1) 0 []
      blockLines literal indent start n
        ⟨line.reverse ++ gap ++ b.reversed, lead, breaks, startsBlank⟩

/-- A literal or folded scalar, from its indicator on. -/
def scanBlock (literal : Bool) : Scan Unit := do
  let style : ScalarStyle := if literal then .literal else .folded
  let start ← mark
  skip
  let (chomping, increment) ← blockHeader start
  skipBlanks
  if (← current) = '#' then skipToBreak
  if !isBreakOrEnd (← current) then fail .blockScalarHeader .blockScalar start
  skipBreak
  let s ← get
  let fuel := s.rest.length + 1
  let known := if increment = 0 then none else some ((max s.indent 0).toNat + increment)
  let (column, breaks) ← blockIndentation known start fuel 0 []
  let indent := known.getD (max (max column (s.indent + 1).toNat) 1)
  let b ← blockLines literal indent start fuel ⟨[], none, breaks, false⟩
  let tail :=
    match chomping with
    | .strip => []
    | .clip => b.lead.toList
    | .keep => b.breaks ++ b.lead.toList
  push start (.scalar style (String.ofList (tail ++ b.reversed).reverse))

end ProcessLint.Yaml.Content.Scan
