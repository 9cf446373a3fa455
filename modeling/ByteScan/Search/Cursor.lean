import ByteScan.Search.First

/-!
# One match after another

A cursor goes through the matches of a signature in a region. Each step searches the bytes behind
the start of the match before, so matches may overlap, and nothing is searched before it is asked
for. A cursor that has once found nothing stays at its end.

`Extent` says how many matches are wanted, and `Signature.starts` lists them.
-/

namespace ByteScan

/-- A place in the series of matches in a region. -/
structure Cursor where
  /-- The bytes that the next step searches. -/
  rest : List UInt8
  /-- How many bytes of the region come before `rest`. -/
  passed : Nat := 0
  /-- Whether a step has found nothing. -/
  finished : Bool := false
  deriving DecidableEq, Repr

namespace Cursor

/-- One step: the start of the next match in the region, and the cursor after it. -/
def next (s : Signature) (c : Cursor) : Option Nat × Cursor :=
  if c.finished then (none, c)
  else
    match s.firstStart? c.rest with
    | none => (none, { c with finished := true })
    | some start =>
      (some (c.passed + start),
        { c with rest := c.rest.drop (start + 1), passed := c.passed + start + 1 })

/-- Steps until a start is `enough`, until there are no more matches, or for at most the given
number of steps. Returns all starts that were met, `met` being the earlier ones in reverse order. -/
def pull (s : Signature) (enough : Nat → Bool) :
    Nat → (met : List Nat) → Cursor → List Nat × Cursor
  | 0, met, c => (met.reverse, c)
  | steps + 1, met, c =>
    match c.next s with
    | (none, c) => (met.reverse, c)
    | (some start, c) =>
      if enough start then ((start :: met).reverse, c) else pull s enough steps (start :: met) c

/-- The next `n` starts, or fewer if there are no more. -/
def take (s : Signature) (n : Nat) (c : Cursor) : List Nat × Cursor :=
  c.pull s (fun _ => false) n []

/-- A number of steps after which every cursor has come to its end: no two matches have the same
start, and one step more finds nothing. -/
def stepBound (c : Cursor) : Nat :=
  c.rest.length + 1

/-- All remaining starts. -/
def drain (s : Signature) (c : Cursor) : List Nat × Cursor :=
  c.take s c.stepBound

/-- The starts up to and including the first one that is reported at `bound` or above. -/
def takeTo (s : Signature) (bound : Int64) (c : Cursor) : List Nat × Cursor :=
  c.pull s (fun start => bound ≤ s.position start) c.stepBound []

end Cursor

/-- How many matches of each signature are wanted. -/
inductive Extent where
  /-- The first match only. -/
  | first
  /-- Every match, or the first `limit` of them. -/
  | every (limit : Option UInt64)
  deriving DecidableEq, Repr

namespace Signature

/-- The starts of the wanted matches in a region, in ascending order. -/
def starts (s : Signature) (extent : Extent) (region : List UInt8) : List Nat :=
  match extent with
  | .first => (s.firstStart? region).toList
  | .every none => (Cursor.drain s { rest := region }).1
  | .every (some limit) => (Cursor.take s limit.toNat { rest := region }).1

/-- Where the wanted matches in a region are reported, in the order of their starts. -/
def positions (s : Signature) (extent : Extent) (region : List UInt8) : List Int64 :=
  (s.starts extent region).map s.position

end Signature

end ByteScan
