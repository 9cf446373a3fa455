import ByteScan.Signature.Basic

/-!
# Signatures from bytes

A signature can be given by its bytes with a mask that says which of them count, or by its bytes
alone, when all of them count.
-/

namespace ByteScan.Signature

/-- The signature with these bytes under this mask text. Of several faults the number of mask
characters is found first, then a character that is none, then the missing anchor. -/
def ofBytesAndMask (bytes : List UInt8) (mask : String) : Except SignatureError Signature := do
  if mask.length ≠ bytes.length then
    throw (.shapeMismatch bytes.length mask.length)
  let mask ← Mask.ofText mask
  ofSlots (List.zipWith Slot.ofFlag mask.flags bytes)

/-- The signature of these bytes, all of them exact. -/
def ofBytes (bytes : List UInt8) : Except SignatureError Signature :=
  ofSlots (bytes.map Slot.exact)

end ByteScan.Signature
