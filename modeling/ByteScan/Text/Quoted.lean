import ByteScan.Text.Hex
import ByteScan.Text.Unprintable

/-!
# Quoted text

A text is shown between double quotes so that its ends and all its characters can be told. Double
quotes and backslashes have a backslash in front, and characters that are not shown as they are
become escapes. A single quote is a character like any other here.
-/

namespace ByteScan.Text

/-- A character as it is shown between quotes. -/
def quotedChar (c : Char) : String :=
  if c = '\x00' then "\\0"
  else if c = '\t' then "\\t"
  else if c = '\r' then "\\r"
  else if c = '\n' then "\\n"
  else if c = '\\' ∨ c = '"' then String.ofList ['\\', c]
  else if isUnprintable c then "\\u\x7b" ++ lowerHex c.toNat ++ "\x7d"
  else String.singleton c

/-- A text between quotes. -/
def quoted (text : String) : String :=
  "\"" ++ String.join (text.toList.map quotedChar) ++ "\""

end ByteScan.Text
