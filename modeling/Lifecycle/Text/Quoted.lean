import Lifecycle.Text.Hex
import Lifecycle.Text.Visible

/-!
# Quoted text

A quoted text stands between double quotes. A double quote, a backslash and the characters with a
short name are written with a backslash; any other character without a visible form is written
as its code point in hexadecimal.
-/

namespace Lifecycle.Text

/-- One character inside a quoted text. -/
def quoteChar (c : Char) : String :=
  if c = '"' then "\\\""
  else if c = '\\' then "\\\\"
  else if c = '\n' then "\\n"
  else if c = '\r' then "\\r"
  else if c = '\t' then "\\t"
  else if c = '\x00' then "\\0"
  else if isVisible c then c.toString
  else "\\u\x7b" ++ hexDigits c.toNat ++ "\x7d"

/-- The text `s` between double quotes. -/
def quote (s : String) : String := "\"" ++ String.join (s.toList.map quoteChar) ++ "\""

end Lifecycle.Text
