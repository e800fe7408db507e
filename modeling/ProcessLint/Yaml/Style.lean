import ProcessLint.Yaml.Scalar

/-!
How a text is written as a scalar so that it reads back as the same text: plain if it can be, a
literal block if it has line feeds, else in single or double quotes. Lines are never folded.
-/
namespace ProcessLint.Yaml

inductive Style where
  | plain
  | singleQuoted
  | doubleQuoted
  | literal
  deriving DecidableEq, Repr

namespace Style

/-- Line breaks; the two separators count although plain scalars are not cut at them. -/
def isBreak (c : Char) : Bool := c = '\n' || c = '\u2028' || c = '\u2029'

/-- Characters that stand for themselves. Controls do not, nor do the byte-order mark and the last
two of the basic plane. -/
def isPrintable (c : Char) : Bool :=
  let n := c.toNat
  n = 10 || (32 ≤ n && n ≤ 126) || (0xa0 ≤ n && !(n = 0xfeff || n = 0xfffe || n = 0xffff))

def isWhite (c : Char) : Bool := c = ' ' || c = '\t' || c = '\r' || isBreak c

/-- Whether one character is directly followed by another of its kind. -/
def hasPair (p q : Char → Bool) (text : List Char) : Bool :=
  (text.zip text.tail).any fun (a, b) => p a && q b

/-- What begins something other than a plain scalar wherever it comes first. -/
def isIndicator (c : Char) : Bool := "#,[]\x7b\x7d&*!|>'\"%@\x60".toList.contains c

/-- What begins something other than a plain scalar if white space or nothing follows. -/
def isLooseIndicator (c : Char) : Bool := c = '?' || c = ':' || c = '-'

def startsLike (text : List Char) : Bool :=
  match text with
  | [] => false
  | c :: rest => isIndicator c || (isLooseIndicator c && rest.head?.all isWhite)

/-- Whether a text would be taken for the mark between documents. -/
def isDocumentMark (text : List Char) : Bool :=
  "---".toList.isPrefixOf text || "...".toList.isPrefixOf text

/-- Whether the text on one line can be a plain scalar, whatever it would mean. -/
def fitsPlain (text : List Char) : Bool :=
  !(startsLike text || isDocumentMark text || text.head? = some ' ' || text.getLast? = some ' ' ||
    text.getLast? = some ':' || hasPair (· = ':') isWhite text || hasPair isWhite (· = '#') text ||
    text.any isBreak)

/-- Whether a plain scalar with this text is text, and not a number or another type. -/
def meansText (text : List Char) : Bool :=
  match Scalar.ofPlain (String.ofList text) with
  | .string _ => !Scalar.isPaddedNumeral text
  | _ => false

/-- The style of a text. -/
def ofText (text : List Char) : Style :=
  if !text.all isPrintable || hasPair (· = ' ') isBreak text then doubleQuoted
  else if text.contains '\n' then
    if text.getLast? = some ' ' then doubleQuoted else literal
  else if hasPair isBreak (· = ' ') text then doubleQuoted
  else if fitsPlain text && meansText text then plain
  else singleQuoted

end Style

/-- A character between double quotes. -/
def escapeDouble (c : Char) : List Char :=
  let hex (width : Nat) := (Text.hexPadded width c.toNat).map Char.toUpper
  if c = '\x00' then ['\\', '0']
  else if c = '\x07' then ['\\', 'a']
  else if c = '\x08' then ['\\', 'b']
  else if c = '\x09' then ['\\', 't']
  else if c = '\x0a' then ['\\', 'n']
  else if c = '\x0b' then ['\\', 'v']
  else if c = '\x0c' then ['\\', 'f']
  else if c = '\x0d' then ['\\', 'r']
  else if c = '\x1b' then ['\\', 'e']
  else if c = '"' then ['\\', '"']
  else if c = '\\' then ['\\', '\\']
  else if c = '\u0085' then ['\\', 'N']
  else if c = '\u2028' then ['\\', 'L']
  else if c = '\u2029' then ['\\', 'P']
  else if Style.isPrintable c then [c]
  else if c.toNat ≤ 0xff then ['\\', 'x'] ++ hex 2
  else ['\\', 'u'] ++ hex 4

/-- Indents every line of a text; lines without content stay empty. `atStart` says whether a line
starts here. -/
def indentLines (indent : Nat) (write : Char → List Char) : Bool → List Char → List Char
  | _, [] => []
  | atStart, c :: rest =>
      if Style.isBreak c then c :: indentLines indent write true rest
      else
        (if atStart then List.replicate indent ' ' else []) ++ write c ++
          indentLines indent write false rest

/-- What is said of the breaks at the end of a literal block: none is kept, one is, or all are. -/
def chomping (text : List Char) : List Char :=
  match text.reverse with
  | [] => ['-']
  | last :: before =>
      if !Style.isBreak last then ['-']
      else if before.head?.all Style.isBreak then ['+']
      else []

/-- A text that starts with white space needs its indentation said. -/
def indentationHint (text : List Char) : List Char :=
  if text.head?.any fun c => c = ' ' || Style.isBreak c then ['2'] else []

/-- A text as a scalar; lines after the first are indented. -/
def writeScalar (indent : Nat) (text : List Char) : List Char :=
  match Style.ofText text with
  | .plain => text
  | .singleQuoted =>
      let quote (c : Char) : List Char := if c = '\'' then ['\'', '\''] else [c]
      let closing := if text.getLast?.any Style.isBreak then List.replicate indent ' ' else []
      '\'' :: indentLines indent quote false text ++ closing ++ ['\'']
  | .doubleQuoted => '"' :: text.flatMap escapeDouble ++ ['"']
  | .literal =>
      '|' :: indentationHint text ++ chomping text ++ '\n' ::
        indentLines indent (fun c => [c]) true text

end ProcessLint.Yaml
