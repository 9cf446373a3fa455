/-!
# Sizes for people

A size in bytes is shown in the unit that keeps the number short: below 1024 bytes exactly, and else
with one decimal in KiB, MiB, GiB or TiB. The size is first rounded to a number with 53 significant
bits; everything after that is exact until the one decimal is cut. Halves go to the even neighbour
both times.

The unit is chosen before the decimal is cut. A size just below a unit can therefore be shown as
1024.0 of the unit below it.
-/

namespace ByteScan

/-- The quotient rounded to the nearest whole number, a half to the even one. -/
def roundDiv (num den : Nat) : Nat :=
  let q := num / den
  let r := num % den
  if 2 * r < den then q
  else if 2 * r > den then q + 1
  else q + q % 2

namespace Size

/-- How many significant bits a size keeps. -/
def precision : Nat := 53

/-- The nearest number that has at most `precision` significant bits. -/
def significant (n : Nat) : Nat :=
  let step := Nat.pow 2 (n.log2 + 1 - precision)
  roundDiv n step * step

/-- A unit above the byte. -/
inductive Unit where
  | kib
  | mib
  | gib
  | tib
  deriving DecidableEq, Repr

namespace Unit

/-- How many bytes the unit has. -/
def bytes : Unit → Nat
  | kib => 1024
  | mib => Nat.pow 1024 2
  | gib => Nat.pow 1024 3
  | tib => Nat.pow 1024 4

/-- The unit's name. -/
def name : Unit → String
  | kib => "KiB"
  | mib => "MiB"
  | gib => "GiB"
  | tib => "TiB"

/-- The unit for a size: the greatest one that is not above the size. -/
def forSize (n : Nat) : Unit :=
  if n < mib.bytes then kib
  else if n < gib.bytes then mib
  else if n < tib.bytes then gib
  else tib

end Unit

/-- The size in tenths of a unit. -/
def tenths (n : Nat) (unit : Unit) : Nat :=
  roundDiv (10 * n) unit.bytes

/-- The size as it is shown. -/
def text (n : Nat) : String :=
  if n < 1024 then s!"{n} B"
  else
    let n := significant n
    let unit := Unit.forSize n
    let t := tenths n unit
    s!"{t / 10}.{t % 10} {unit.name}"

end Size

end ByteScan
