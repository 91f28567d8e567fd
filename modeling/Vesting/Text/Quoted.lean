/-
# Quoted text

Error messages show a piece of text between quotes, so that its ends and its
invisible characters can be seen. Single quotes are used unless the text holds
single quotes only; the quote and the backslash are escaped, line ends and tabs
have short escapes, and every other unprintable character is written by its code
point in two, four or eight hexadecimal digits.
-/

import Vesting.Text.HexDigit
import Vesting.Text.Printable

namespace Vesting.Text

def escape (quote c : Char) : List Char :=
  if c == '\\' || c == quote then ['\\', c]
  else if c == '\n' then ['\\', 'n']
  else if c == '\r' then ['\\', 'r']
  else if c == '\t' then ['\\', 't']
  else if isPrintable c then [c]
  else if c.toNat < 0x100 then '\\' :: 'x' :: hexDigits 2 c.toNat
  else if c.toNat < 0x10000 then '\\' :: 'u' :: hexDigits 4 c.toNat
  else '\\' :: 'U' :: hexDigits 8 c.toNat

/-- The quote that a text is shown in. -/
def quoteFor (cs : List Char) : Char :=
  if cs.contains '\'' && !cs.contains '"' then '"' else '\''

def quoted (s : String) : String :=
  let quote := quoteFor s.toList
  String.ofList (quote :: s.toList.flatMap (escape quote) ++ [quote])

end Vesting.Text
