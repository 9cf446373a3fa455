import ByteScan.Mask

/-!
# Signatures

A signature is a byte pattern with wildcards: a list of slots, each of which is one byte or any byte.
A search looks for the signature's *anchor*, its first exact slot, so a signature without one cannot
be built.

A wildcard slot holds no byte. Two descriptions that differ only in bytes under wildcards therefore
give the same signature, and equality is the derived one.

## Contents

* `Slot`, `Signature` and the parts of a signature that a search uses (`anchorIndex`, `anchorByte`,
  `tail`).
* `Slot.accept`, which compares a list of slots with the front of a byte list, and
  `Signature.matchesAt`, which does so at a given start of a region.
* `Signature.ofSlots`, through which every other constructor goes.
-/

namespace ByteScan

/-- One position of a signature. -/
inductive Slot where
  /-- Any byte will do. -/
  | any
  /-- Only this byte will do. -/
  | exact (byte : UInt8)
  deriving DecidableEq, Repr

namespace Slot

/-- The byte of an exact slot. -/
def byte? : Slot → Option UInt8
  | any => none
  | exact b => some b

/-- Whether the slot is exact. -/
def isExact (s : Slot) : Bool :=
  s.byte?.isSome

/-- The slot's byte, with zero in place of a wildcard. -/
def byteOrZero (s : Slot) : UInt8 :=
  s.byte?.getD 0

/-- The slot's mask flag. -/
def flag : Slot → MaskFlag
  | any => .wildcard
  | exact _ => .exact

/-- The slot for a byte under a mask flag: the byte counts only where the flag is exact. -/
def ofFlag : MaskFlag → UInt8 → Slot
  | .exact, b => exact b
  | .wildcard, _ => any

/-- Whether the slot admits a byte. -/
def admits : Slot → UInt8 → Bool
  | any, _ => true
  | exact b, c => b == c

/-- Whether the slots admit the first bytes of a list, one byte for each slot. A list with fewer
bytes than slots is not accepted. -/
def accept : List Slot → List UInt8 → Bool
  | [], _ => true
  | _ :: _, [] => false
  | s :: slots, b :: bytes => s.admits b && accept slots bytes

end Slot

/-- A byte pattern with wildcards, and the offset to add to each place where it is found. -/
structure Signature where
  /-- What each position of a match has to be. -/
  slots : List Slot
  /-- Added to the start of every match when the match is reported. -/
  offset : Int64 := 0
  /-- Some slot is exact. -/
  anchored : (slots.findSome? Slot.byte?).isSome = true
  deriving DecidableEq, Repr

namespace Signature

/-- The signature with these slots and no offset. Slots without an exact one among them, the empty
list included, are refused. -/
def ofSlots (slots : List Slot) : Except SignatureError Signature :=
  if h : (slots.findSome? Slot.byte?).isSome = true then .ok ⟨slots, 0, h⟩ else .error .noAnchor

/-- The signature with another offset. -/
def withOffset (s : Signature) (offset : Int64) : Signature :=
  { s with offset }

/-- How many bytes a match has. -/
def length (s : Signature) : Nat :=
  s.slots.length

/-- The index of the first exact slot. -/
def anchorIndex (s : Signature) : Nat :=
  s.slots.findIdx Slot.isExact

/-- The byte of the first exact slot. -/
def anchorByte (s : Signature) : UInt8 :=
  (s.slots.findSome? Slot.byte?).get s.anchored

/-- The slots from the anchor on. Those before it are wildcards, so a search need not compare
them. -/
def tail (s : Signature) : List Slot :=
  s.slots.drop s.anchorIndex

/-- The bytes of the slots, with zero for each wildcard. -/
def bytes (s : Signature) : List UInt8 :=
  s.slots.map Slot.byteOrZero

/-- Which slots are exact. -/
def mask (s : Signature) : Mask :=
  ⟨s.slots.map Slot.flag⟩

/-- Whether the region matches the signature where the first slot stands at `start`. No match
reaches over the end of the region. -/
def matchesAt (s : Signature) (region : List UInt8) (start : Nat) : Bool :=
  Slot.accept s.slots (region.drop start)

theorem length_pos (s : Signature) : 0 < s.length := by
  rcases s with ⟨slots, offset, h⟩
  cases slots with
  | nil => simp at h
  | cons a l => simp [length]

theorem anchorIndex_lt_length (s : Signature) : s.anchorIndex < s.length := by
  have h := s.anchored
  rw [List.findSome?_isSome_iff] at h
  obtain ⟨a, ha, hb⟩ := h
  exact List.findIdx_lt_length_of_exists ⟨a, ha, hb⟩

end Signature

end ByteScan
