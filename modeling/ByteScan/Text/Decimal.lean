/-!
# Decimal numbers

Whole numbers in ASCII digits. Leading zeros and a plus sign are allowed, and nothing else is: no
blanks, no separators, no other digits.
-/

namespace ByteScan.Text

/-- The number that decimal digits write. -/
def decimal (digits : List Char) : Nat :=
  digits.foldl (fun n c => 10 * n + (c.toNat - '0'.toNat)) 0

/-- The number that a text of digits writes. There has to be a digit. -/
def natural? (cs : List Char) : Option Nat :=
  if cs ≠ [] ∧ cs.all Char.isDigit then some (decimal cs) else none

/-- A number with a sign, or without one. -/
def signed? : List Char → Option Int
  | '-' :: cs => (natural? cs).map fun n => -(n : Int)
  | '+' :: cs => (natural? cs).map Int.ofNat
  | cs => (natural? cs).map Int.ofNat

/-- A number without a minus sign. -/
def unsigned? : List Char → Option Nat
  | '+' :: cs => natural? cs
  | cs => natural? cs

/-- A number from -2^63 up to 2^63 - 1. -/
def int64? (text : String) : Option Int64 :=
  match signed? text.toList with
  | none => none
  | some n =>
    if Int64.minValue.toInt ≤ n ∧ n ≤ Int64.maxValue.toInt then some (Int64.ofInt n) else none

/-- A number from zero up to 2^64 - 1. -/
def uint64? (text : String) : Option UInt64 :=
  match unsigned? text.toList with
  | none => none
  | some n => if n < UInt64.size then some (UInt64.ofNat n) else none

end ByteScan.Text
