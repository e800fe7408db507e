import ProcessLint.Text.Digits
import ProcessLint.Text.Hidden

/-!
Strings as messages show them: between double quotes, with a backslash before a quote or a
backslash, letters for the common controls, and the code point in braces for every other
character that cannot be shown.
-/
namespace ProcessLint.Text

def quoteChar (c : Char) : List Char :=
  if c = '"' then ['\\', '"']
  else if c = '\\' then ['\\', '\\']
  else if c = '\n' then ['\\', 'n']
  else if c = '\r' then ['\\', 'r']
  else if c = '\t' then ['\\', 't']
  else if c.toNat = 0 then ['\\', '0']
  else if isHidden c then ['\\', 'u', '\x7b'] ++ hexDigits c.toNat ++ ['\x7d']
  else [c]

def quoteChars (text : List Char) : List Char := '"' :: text.flatMap quoteChar ++ ['"']

def quote (s : String) : String := String.ofList (quoteChars s.toList)

end ProcessLint.Text
