/-!
White space as the Unicode property White_Space has it: U+00A0, U+0085 and U+3000 separate
words, U+200B and U+FEFF do not. The functions work on lists of characters; `trim` and `isBlank`
are also there for strings.
-/
namespace ProcessLint.Text

def isSpace (c : Char) : Bool :=
  let code := c.toNat
  (9 ≤ code && code ≤ 13) || code == 0x20 || code == 0x85 || code == 0xA0 || code == 0x1680 ||
    (0x2000 ≤ code && code ≤ 0x200A) || code == 0x2028 || code == 0x2029 || code == 0x202F ||
    code == 0x205F || code == 0x3000

/-- The maximal runs of characters that are no white space, in order. -/
def words (text : List Char) : List (List Char) :=
  (text.splitOnP isSpace).filter (· ≠ [])

def trimStart (text : List Char) : List Char := text.dropWhile isSpace

def trimEnd (text : List Char) : List Char := (text.reverse.dropWhile isSpace).reverse

def trim (text : List Char) : List Char := trimEnd (trimStart text)

def isBlank (text : List Char) : Bool := text.all isSpace

end ProcessLint.Text

namespace String

/-- Without white space at either end. -/
def trimSpace (s : String) : String := String.ofList (ProcessLint.Text.trim s.toList)

def isBlank (s : String) : Bool := ProcessLint.Text.isBlank s.toList

end String
