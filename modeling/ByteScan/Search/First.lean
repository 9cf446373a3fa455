import ByteScan.Signature.Basic

/-!
# The first match

A search walks over the region and stops at each occurrence of the signature's anchor byte. There it
compares the slots from the anchor on. If they do not fit, the search goes on behind the bytes that
it has just compared, so a match that begins inside them is passed over. This loses matches on
purpose; what it finds always matches.

The anchor is looked for from `anchorIndex` on, because an earlier one would leave no room for the
wildcards in front of it.
-/

namespace ByteScan.Signature

/-- Walks over the region to the first place where `anchor` stands and `slots` fit, and returns its
index. The first `skip` bytes are passed without a look at them, and `index` bytes lie behind. A
place where `anchor` stands and `slots` do not fit is passed together with as many bytes as there
are slots. -/
def seek (anchor : UInt8) (slots : List Slot) : (skip index : Nat) → List UInt8 → Option Nat
  | _, _, [] => none
  | skip + 1, index, _ :: rest => seek anchor slots skip (index + 1) rest
  | 0, index, byte :: rest =>
    if byte == anchor then
      if Slot.accept slots (byte :: rest) then some index
      else seek anchor slots (slots.length - 1) (index + 1) rest
    else seek anchor slots 0 (index + 1) rest

/-- The start of the first match that the search finds. The start is where the first slot stands,
and the signature's offset is not added. -/
def firstStart? (s : Signature) (region : List UInt8) : Option Nat :=
  (seek s.anchorByte s.tail s.anchorIndex 0 region).map (· - s.anchorIndex)

/-- Where a match that begins at `start` is reported: the offset is added to the start, and a sum
beyond the greatest or least position is reported as that position. -/
def position (s : Signature) (start : Nat) : Int64 :=
  Int64.ofIntClamp (start + s.offset.toInt)

/-- Where the first match is reported. -/
def find? (s : Signature) (region : List UInt8) : Option Int64 :=
  (s.firstStart? region).map s.position

end ByteScan.Signature
