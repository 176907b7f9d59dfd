import ComponentTags.Text.Hex
import ComponentTags.Text.Printable

/-!
# Quoted texts

The quoted form in which messages show a text. The single quote delimits it, unless the text holds
single quotes and no double quote. The delimiter and the backslash are escaped, line feed, carriage
return and tab have letters, and every other character that is not printable is written by its code
point in two, four or eight digits.
-/

namespace ComponentTags.Text

/-- The quote that delimits a text. -/
def quoteFor (s : List Char) : Char :=
  if s.contains '\'' && !s.contains '"' then '"' else '\''

/-- A character as it stands between two quotes. -/
def quotedChar (quote c : Char) : List Char :=
  if c == quote || c == '\\' then ['\\', c]
  else if c == '\n' then ['\\', 'n']
  else if c == '\r' then ['\\', 'r']
  else if c == '\t' then ['\\', 't']
  else if isPrintable c then [c]
  else if c.toNat < 0x100 then '\\' :: 'x' :: hexDigits 2 c.toNat
  else if c.toNat < 0x10000 then '\\' :: 'u' :: hexDigits 4 c.toNat
  else '\\' :: 'U' :: hexDigits 8 c.toNat

/-- A text in quotes. -/
def quoted (s : String) : String :=
  let quote := quoteFor s.toList
  String.ofList (quote :: s.toList.flatMap (quotedChar quote) ++ [quote])

end ComponentTags.Text
