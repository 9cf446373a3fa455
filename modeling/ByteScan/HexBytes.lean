import ByteScan.Text.Blank
import ByteScan.Text.Hex

/-!
# Bytes in hexadecimal text

Bytes can be written as one run of digits, as groups with blanks between them, and with a mark `0x`
or `0X` in front of each group. The groups are joined before the digits are taken in pairs, so a pair
may lie across two groups.
-/

namespace ByteScan.HexBytes

/-- A group without its leading marks, each of which is a zero and the letter `x`. -/
def dropMarks (x : Char) : List Char → List Char
  | '0' :: c :: rest => if c = x then dropMarks x rest else '0' :: c :: rest
  | cs => cs

/-- The digits of a text: the groups without their marks, joined. In each group the marks `0x` are
dropped first, and then the marks `0X`. -/
def digits (text : String) : List Char :=
  (Text.fields text.toList).flatMap fun group => dropMarks 'X' (dropMarks 'x' group)

/-- The bytes that pairs of digits write. There are none if a digit is left over or a character is no
digit. -/
def ofPairs? : List Char → Option (List UInt8)
  | [] => some []
  | [_] => none
  | high :: low :: rest => do
    let b ← Text.byte? high low
    let bs ← ofPairs? rest
    return b :: bs

/-- The bytes that a text writes. -/
def read? (text : String) : Option (List UInt8) :=
  ofPairs? (digits text)

/-- The message for a text that writes no bytes. -/
def message (text : String) : String :=
  s!"Invalid hex byte string: '{text}'"

end ByteScan.HexBytes
