import Std.Data.HashMap

/-!
# Tallies

A tally counts keys. Counting a key that is new sets its count to one; counting it again adds one,
until the greatest number that a count can hold is reached.

`Tally` keeps its keys in the order in which they came in. `HashTally` has no order of its own, and
gives its contents sorted by key. Both count alike.
-/

namespace ByteScan

/-- The kind of whole number that a count is. -/
structure CountType where
  /-- How many bits it has. -/
  bits : Nat
  /-- Whether one of them is a sign. -/
  signed : Bool
  deriving DecidableEq, Repr

namespace CountType

/-- The greatest number of the kind. -/
def max (t : CountType) : Int :=
  Int.pow 2 (if t.signed then t.bits - 1 else t.bits) - 1

/-- The count after one more, which is the greatest number at most. -/
def increase (t : CountType) (count : Int) : Int :=
  min (count + 1) t.max

/-- The count of a key that had this count, or none, and is counted once more. -/
def next (t : CountType) : Option Int → Int
  | none => 1
  | some count => t.increase count

/-- Unsigned numbers of 64 bits. -/
def unsigned64 : CountType :=
  ⟨64, false⟩

end CountType

/-- Counts by key, in the order of the keys' first appearance. Keys are texts if nothing else is
said. -/
structure Tally (κ : Type := String) where
  entries : List (κ × Int) := []
  deriving DecidableEq, Repr

namespace Tally

variable {κ : Type} [DecidableEq κ]

/-- The count of a key. -/
def get? (t : Tally κ) (key : κ) : Option Int :=
  t.entries.lookup key

/-- The entries with the count of a key replaced by `f` of it, or with a new entry `f none` at the
end. -/
def alterEntries (key : κ) (f : Option Int → Int) : List (κ × Int) → List (κ × Int)
  | [] => [(key, f none)]
  | (k, count) :: rest =>
    if k = key then (k, f (some count)) :: rest else (k, count) :: alterEntries key f rest

/-- Sets the count of a key. The key keeps its place if it has one. -/
def insert (t : Tally κ) (key : κ) (count : Int) : Tally κ :=
  ⟨alterEntries key (fun _ => count) t.entries⟩

/-- Counts a key once more. -/
def increment (type : CountType) (t : Tally κ) (key : κ) : Tally κ :=
  ⟨alterEntries key type.next t.entries⟩

/-- Counts a key once more, and returns its new count with the tally. -/
def count (type : CountType) (t : Tally κ) (key : κ) : Int × Tally κ :=
  let n := type.next (t.get? key)
  (n, t.insert key n)

end Tally

/-- Counts by key, without an order of the keys. -/
structure HashTally (κ : Type := String) [BEq κ] [Hashable κ] where
  counts : Std.HashMap κ Int := {}

namespace HashTally

section

variable {κ : Type} [BEq κ] [Hashable κ]

/-- The count of a key. -/
def get? (t : HashTally κ) (key : κ) : Option Int :=
  t.counts[key]?

/-- Sets the count of a key. -/
def insert (t : HashTally κ) (key : κ) (count : Int) : HashTally κ :=
  ⟨t.counts.insert key count⟩

/-- Counts a key once more. -/
def increment (type : CountType) (t : HashTally κ) (key : κ) : HashTally κ :=
  t.insert key (type.next (t.get? key))

/-- Counts a key once more, and returns its new count with the tally. -/
def count (type : CountType) (t : HashTally κ) (key : κ) : Int × HashTally κ :=
  let n := type.next (t.get? key)
  (n, t.insert key n)

end

/-- The keys with their counts, in ascending order of the keys. Keys are compared character by
character, which is the order of their bytes in UTF-8. -/
def sorted (t : HashTally) : List (String × Int) :=
  t.counts.toList.mergeSort fun a b => decide (a.1 ≤ b.1)

end HashTally

end ByteScan
