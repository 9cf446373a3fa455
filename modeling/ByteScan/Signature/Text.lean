import ByteScan.Signature.Basic
import ByteScan.Text.Blank
import ByteScan.Text.Hex

/-!
# Signatures in text

A signature is written slot by slot, with blanks between the slots: two hexadecimal digits for a
byte, `?` or `??` for a wildcard. The canonical text (`Signature.text`) has upper-case digits, `??`
for every wildcard and single spaces.
-/

namespace ByteScan

namespace Slot

/-- The slot that a word stands for: exactly two hexadecimal digits, or `?` or `??`. A word that is
half a digit and half a wildcard stands for nothing. -/
def ofWord? : List Char → Option Slot
  | ['?'] | ['?', '?'] => some any
  | [high, low] => (Text.byte? high low).map exact
  | _ => none

/-- The canonical word for a slot. -/
def text : Slot → String
  | any => "??"
  | exact b => Text.byteText b

/-- Reads words as slots, the first of them having the given index. The first word that stands for
no slot is the fault. -/
def readWords (index : Nat) : List (List Char) → Except SignatureError (List Slot)
  | [] => .ok []
  | word :: words =>
    match ofWord? word with
    | none => .error (.malformedToken index (String.ofList word))
    | some slot => (readWords (index + 1) words).map (slot :: ·)

/-- The slots that the words of a text stand for. -/
def listOfText (text : String) : Except SignatureError (List Slot) :=
  readWords 0 (Text.fields text.toList)

end Slot

namespace Signature

/-- The signature that a text writes. A malformed word is found before a missing anchor. -/
def ofText (text : String) : Except SignatureError Signature :=
  Slot.listOfText text >>= ofSlots

/-- The canonical text of a signature. It leaves the offset out. -/
def text (s : Signature) : String :=
  " ".intercalate (s.slots.map Slot.text)

end Signature

end ByteScan
