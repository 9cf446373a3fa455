import ByteScan.Proofs.Search.Series

/-!
# The search on machine words

`Search.First` and `Search.Cursor` count with natural numbers, walk over lists and cannot fail. Here
is the same search as a machine runs it. Positions and lengths are words of 64 bits, a signature is
its bytes and its flags with the index of its anchor, and the search is a loop over a position in the
region. A step that a machine cannot do is a trap. The loop is run for a given number of rounds, and
when it goes on after them it has no outcome. So an equation with `pure` says that a computation ends
in that many rounds, that it meets no trap, and what it comes to.

* `Trap`, `Machine`: computations on words.
* `Machine.pass`, `Machine.passes`: once through the loop of the search, and the loop.
* `Machine.firstStart`, `Machine.find`: the first match.
* `Machine.Matches`, `Machine.next`, `Machine.calls`: one match after another.

Results:
1. `exists_add`, `exists_sub`, `sliceFrom_eq`: operations that meet no trap. `window?_eq`: a slice of
   a given length.
2. `fitsAt_eq`: the comparison at an anchor, wherever the anchor stands.
3. `settle_cases`: an anchor position. `pass_cases`: once through the loop. `passes_eq`: the loop
   ends.
4. `firstStart_eq`, `report_eq`, `find_eq`: the first match.
5. `next_eq`, `calls_eq`: one call for a match, and any number of calls.
6. `search_meets_no_trap`: all searches of a region.
-/

namespace ByteScan

/-! ## Definitions -/

/-- Why a machine cannot do a step. -/
inductive Trap where
  /-- A sum is beyond the greatest word. -/
  | overflow
  /-- A difference is below zero. -/
  | underflow
  /-- An index is not in the list, or a slice begins behind its end. -/
  | outOfRange
  /-- A start is negative when it is taken for a position. -/
  | negativeStart
  /-- More bytes are passed than the region has. -/
  | passedEnd
  deriving DecidableEq, Repr

/-- A computation on words. It comes to a value or to a trap, or it has not ended. -/
abbrev Machine := ExceptT Trap Option

namespace Machine

section Operations

variable {α : Type}

/-- The sum of two words. -/
def add (a b : UInt64) : Machine UInt64 :=
  if a.toNat + b.toNat < UInt64.size then return a + b else throw .overflow

/-- The sum of two words, if it is a word. -/
def add? (a b : UInt64) : Option UInt64 :=
  if a.toNat + b.toNat < UInt64.size then some (a + b) else none

/-- The difference of two words. -/
def sub (a b : UInt64) : Machine UInt64 :=
  if b ≤ a then return a - b else throw .underflow

/-- The number of elements. -/
def size (xs : List α) : UInt64 :=
  UInt64.ofNat xs.length

/-- The element at an index. -/
def element (xs : List α) (i : UInt64) : Machine α :=
  match xs[i.toNat]? with
  | some x => return x
  | none => throw .outOfRange

/-- The elements from an index on, if the list goes that far. -/
def sliceFrom? (xs : List α) (i : UInt64) : Option (List α) :=
  if i.toNat ≤ xs.length then some (xs.drop i.toNat) else none

/-- The elements from an index on. -/
def sliceFrom (xs : List α) (i : UInt64) : Machine (List α) :=
  match sliceFrom? xs i with
  | some rest => return rest
  | none => throw .outOfRange

/-- The elements from `i` on and before `j`, if the list goes that far. -/
def slice? (xs : List α) (i j : UInt64) : Option (List α) :=
  if i ≤ j ∧ j.toNat ≤ xs.length then some ((xs.drop i.toNat).take (j.toNat - i.toNat)) else none

end Operations

section Search

variable (s : Signature) (region : List UInt8)

/-- The index of the anchor. -/
def anchorIndex : UInt64 :=
  UInt64.ofNat s.anchorIndex

/-- Whether the slots from the anchor on fit where the anchor stands at `found`. -/
def fitsAt (found : UInt64) : Machine Bool := do
  let length ← sub (size s.bytes) (anchorIndex s)
  match (add? found length).bind (slice? region found) with
  | none => return false
  | some window =>
    let flags ← sliceFrom s.mask.flags (anchorIndex s)
    let bytes ← sliceFrom s.bytes (anchorIndex s)
    return ((bytes.zip flags).zip window).all fun ((expected, flag), actual) =>
      !flag.isExact || expected == actual

/-- What going once through the loop comes to. -/
inductive Pass where
  /-- The search ends, with the start of a match or without one. -/
  | ended (start : Option UInt64)
  /-- The search goes on from here. -/
  | onward (cursor : UInt64)
  deriving DecidableEq, Repr

/-- What the search does where the anchor stands at `found`. -/
def settle (skip found : UInt64) : Machine Pass := do
  if ← fitsAt s region found then
    return .ended (some (← sub found (anchorIndex s)))
  else
    return .onward (← add found skip)

/-- Once through the loop of the search, from a position in the region. -/
def pass (anchor : UInt8) (skip cursor : UInt64) : Machine Pass := do
  match sliceFrom? region cursor with
  | none => return .ended none
  | some rest =>
    match rest.idxOf? anchor with
    | none => return .ended none
    | some distance =>
      let found ← add cursor (UInt64.ofNat distance)
      settle s region skip found

/-- The loop of the search, for a number of rounds. -/
def passes (anchor : UInt8) (skip : UInt64) : (rounds : Nat) → UInt64 → Machine (Option UInt64)
  | 0, _ => none
  | rounds + 1, cursor => do
    match ← pass s region anchor skip cursor with
    | .ended start => return start
    | .onward cursor => passes anchor skip rounds cursor

/-- The start of the first match. -/
def firstStart (rounds : Nat) : Machine (Option UInt64) := do
  let anchor ← element s.bytes (anchorIndex s)
  let skip ← sub (size s.bytes) (anchorIndex s)
  passes s region anchor skip rounds (anchorIndex s)

/-- Where a match is reported: the start is taken for a position, and the offset is added as far as
positions go. -/
def report (start : UInt64) : Machine Int64 :=
  let position := start.toInt64
  if position < 0 then throw .negativeStart
  else return Int64.ofIntClamp (position.toInt + s.offset.toInt)

/-- Where the first match is reported. -/
def find (rounds : Nat) : Machine (Option Int64) := do
  match ← firstStart s region rounds with
  | none => return none
  | some start => return some (← report s start)

/-- A place in the series of matches in a region. -/
structure Matches where
  /-- How many bytes of the region are passed. -/
  consumed : UInt64 := 0
  /-- Whether there are no more matches. -/
  done : Bool := false
  deriving DecidableEq, Repr

/-- The next match, and the place behind it. -/
def next (rounds : Nat) (m : Matches) : Machine (Option Int64 × Matches) := do
  if m.done then return (none, m)
  match sliceFrom? region m.consumed with
  | none => throw .passedEnd
  | some rest =>
    match ← firstStart s rest rounds with
    | none => return (none, { m with done := true })
    | some relative =>
      let start ← add m.consumed relative
      let consumed ← add start 1
      return (some (← report s start), { m with consumed })

/-- The answers to a number of calls for the next match, and the place behind them. -/
def calls (rounds : Nat) (m : Matches) : Nat → Machine (List (Option Int64) × Matches)
  | 0 => return ([], m)
  | n + 1 => do
    let (answers, m) ← calls rounds m n
    let (answer, m) ← next s region rounds m
    return (answers ++ [answer], m)

end Search

/-- The greatest length of a list in memory. -/
def longest : Nat :=
  Int64.maxValue.toNatClampNeg

/-! ## 1. Operations -/

section Operations

variable {α : Type} {xs : List α} {a b i j : UInt64} {n : Nat}

theorem longest_eq : longest = 9223372036854775807 :=
  rfl

theorem size_word : UInt64.size = 18446744073709551616 :=
  rfl

theorem toNat_ofNat (h : n ≤ longest) : (UInt64.ofNat n).toNat = n := by
  apply UInt64.toNat_ofNat_of_lt'
  exact Nat.lt_of_le_of_lt h (by decide)

/-- A word is given by its value. -/
theorem eq_ofNat (h : a.toNat = n) : a = UInt64.ofNat n := by
  rw [← h, UInt64.ofNat_toNat]

/-- Two lengths have a sum. -/
theorem add_lt_size (ha : a.toNat ≤ longest) (hb : b.toNat ≤ longest) :
    a.toNat + b.toNat < UInt64.size := by
  rw [longest_eq] at ha hb
  rw [size_word]
  omega

theorem toNat_add (h : a.toNat + b.toNat < UInt64.size) : (a + b).toNat = a.toNat + b.toNat := by
  rw [UInt64.toNat_add]
  exact Nat.mod_eq_of_lt h

theorem exists_add (ha : a.toNat ≤ longest) (hb : b.toNat ≤ longest) :
    ∃ c, add a b = pure c ∧ c.toNat = a.toNat + b.toNat :=
  ⟨a + b, if_pos (add_lt_size ha hb), toNat_add (add_lt_size ha hb)⟩

theorem add?_eq (h : a.toNat + b.toNat < UInt64.size) : add? a b = some (a + b) :=
  if_pos h

theorem add?_eq_none (h : UInt64.size ≤ a.toNat + b.toNat) : add? a b = none :=
  if_neg (Nat.not_lt_of_le h)

theorem exists_sub (h : b.toNat ≤ a.toNat) :
    ∃ c, sub a b = pure c ∧ c.toNat = a.toNat - b.toNat := by
  have hle : b ≤ a := UInt64.le_iff_toNat_le.mpr h
  exact ⟨a - b, if_pos hle, UInt64.toNat_sub_of_le a b hle⟩

theorem sliceFrom?_eq (h : i.toNat ≤ xs.length) : sliceFrom? xs i = some (xs.drop i.toNat) :=
  if_pos h

theorem sliceFrom?_eq_none (h : xs.length < i.toNat) : sliceFrom? xs i = none :=
  if_neg (Nat.not_le_of_lt h)

theorem slice?_eq (hi : i.toNat ≤ j.toNat) (hj : j.toNat ≤ xs.length) :
    slice? xs i j = some ((xs.drop i.toNat).take (j.toNat - i.toNat)) :=
  if_pos ⟨UInt64.le_iff_toNat_le.mpr hi, hj⟩

theorem slice?_eq_none (h : xs.length < j.toNat) : slice? xs i j = none :=
  if_neg fun hslice => Nat.not_le_of_lt h hslice.2

theorem sliceFrom_eq (h : i.toNat ≤ xs.length) : sliceFrom xs i = pure (xs.drop i.toNat) := by
  rw [sliceFrom, sliceFrom?_eq h]

/-- A slice of length `j` from `i` on is there exactly if it ends in the list. An end that is no word
is not in the list either, so the sum can be taken without a bound. -/
theorem window?_eq (hxs : xs.length ≤ longest) (i j : UInt64) :
    (add? i j).bind (slice? xs i) =
      if i.toNat + j.toNat ≤ xs.length then some ((xs.drop i.toNat).take j.toNat) else none := by
  rw [longest_eq] at hxs
  have hsize := size_word
  rcases Nat.lt_or_ge (i.toNat + j.toNat) UInt64.size with hword | hword
  · have hstop := toNat_add hword
    rw [add?_eq hword, Option.bind_some]
    split
    · next hfits => rw [slice?_eq (by omega) (by omega), hstop, Nat.add_sub_cancel_left]
    · next hfits => rw [slice?_eq_none (by omega)]
  · -- The end is no word, so it is greater than every length.
    rw [add?_eq_none hword, if_neg (by omega), Option.bind_none]

end Operations

/-! ## 2. The comparison at an anchor -/

section Comparison

/-- The stored bytes and flags accept what the slots accept. -/
theorem all_zip_eq_accept (slots : List Slot) (window : List UInt8)
    (h : slots.length = window.length) :
    (((slots.map Slot.byteOrZero).zip (slots.map Slot.flag)).zip window).all
        (fun ((expected, flag), actual) => !flag.isExact || expected == actual) =
      Slot.accept slots window := by
  induction slots generalizing window with
  | nil => rfl
  | cons slot slots ih =>
    obtain ⟨b, window, rfl⟩ := List.exists_cons_of_length_eq_add_one h.symm
    have hslot : (!slot.flag.isExact || slot.byteOrZero == b) = slot.admits b := by
      cases slot <;> rfl
    rw [Slot.accept, ← ih window (Nat.succ.inj h), ← hslot]
    rfl

theorem accept_take (slots : List Slot) (bytes : List UInt8) :
    Slot.accept slots (bytes.take slots.length) = Slot.accept slots bytes := by
  induction slots generalizing bytes with
  | nil => rfl
  | cons slot slots ih =>
    cases bytes with
    | nil => rfl
    | cons b bytes =>
      rw [List.length_cons, List.take_succ_cons, Slot.accept, Slot.accept, ih]

/-- A region that ends before the last slot is not accepted. -/
theorem accept_drop_of_short {slots : List Slot} {region : List UInt8} {start : Nat}
    (hpos : 0 < slots.length) (h : region.length < start + slots.length) :
    Slot.accept slots (region.drop start) = false := by
  rw [Bool.eq_false_iff]
  intro haccept
  have hlength := (Slot.accept_iff.mp haccept).1
  rw [List.length_drop] at hlength
  omega

/-- Where a region does not end before the last slot, the stored bytes and flags accept the bytes
under the slots exactly if the slots accept the region there. -/
theorem all_window_eq_accept {slots : List Slot} {region : List UInt8} {start : Nat}
    (h : start + slots.length ≤ region.length) :
    (((slots.map Slot.byteOrZero).zip (slots.map Slot.flag)).zip
        ((region.drop start).take slots.length)).all
        (fun ((expected, flag), actual) => !flag.isExact || expected == actual) =
      Slot.accept slots (region.drop start) := by
  have hwindow : slots.length = ((region.drop start).take slots.length).length := by
    rw [List.length_take, List.length_drop]
    omega
  rw [all_zip_eq_accept _ _ hwindow, accept_take]

variable {s : Signature} {region : List UInt8}

theorem length_bytes (s : Signature) : s.bytes.length = s.length :=
  List.length_map _

theorem length_flags (s : Signature) : s.mask.flags.length = s.length :=
  List.length_map _

variable (hs : s.length ≤ longest)
include hs

theorem toNat_anchorIndex : (anchorIndex s).toNat = s.anchorIndex :=
  toNat_ofNat (Nat.le_trans (Nat.le_of_lt s.anchorIndex_lt_length) hs)

theorem toNat_jump : (UInt64.ofNat s.jump).toNat = s.jump :=
  toNat_ofNat (Nat.le_trans (s.jump_le_length) hs)

theorem toNat_size_bytes : (size s.bytes).toNat = s.length := by
  rw [size, length_bytes, toNat_ofNat hs]

/-- The number of slots from the anchor on, as the search computes it. -/
theorem sub_anchorIndex :
    sub (size s.bytes) (anchorIndex s) = pure (UInt64.ofNat s.jump) := by
  have hlt := s.anchorIndex_lt_length
  have hsize := toNat_size_bytes hs
  have hanchor := toNat_anchorIndex hs
  obtain ⟨jump, hsub, hjump⟩ := exists_sub (a := size s.bytes) (b := anchorIndex s) (by omega)
  rw [hsize, hanchor] at hjump
  rw [hsub, eq_ofNat hjump, Signature.jump]

theorem fitsAt_eq (hregion : region.length ≤ longest) (found : UInt64) :
    fitsAt s region found = pure (Slot.accept s.tail (region.drop found.toNat)) := by
  have hlt := s.anchorIndex_lt_length
  have htail : s.tail.length = s.jump := s.length_tail
  have hpos := s.jump_pos
  have hanchor := toNat_anchorIndex hs
  rw [fitsAt, sub_anchorIndex hs, pure_bind, window?_eq hregion, toNat_jump hs, ← htail]
  rcases Nat.lt_or_ge region.length (found.toNat + s.tail.length) with hshort | hfits
  · -- The region ends before the last slot.
    rw [if_neg (Nat.not_le_of_lt hshort), accept_drop_of_short (by omega) hshort]
  · have hflags : sliceFrom s.mask.flags (anchorIndex s) = pure (s.tail.map Slot.flag) := by
      rw [sliceFrom_eq (by rw [length_flags]; omega), hanchor, Signature.tail, List.map_drop]
      rfl
    have hbytes : sliceFrom s.bytes (anchorIndex s) = pure (s.tail.map Slot.byteOrZero) := by
      rw [sliceFrom_eq (by rw [length_bytes]; omega), hanchor, Signature.tail, List.map_drop]
      rfl
    rw [if_pos hfits]
    simp only [hflags, hbytes, pure_bind]
    rw [all_window_eq_accept hfits]

end Comparison

/-! ## 3. The loop -/

section Loop

variable {s : Signature} {region : List UInt8} {w : Nat}

theorem idxOf?_drop {n distance : Nat} {anchor : UInt8}
    (h : (region.drop n).idxOf? anchor = some distance) :
    region[n + distance]? = some anchor ∧ ∀ i < distance, region[n + i]? ≠ some anchor := by
  obtain ⟨hlt, heq, hleast⟩ := List.idxOf?_eq_some_iff.mp h
  refine ⟨?_, fun i hi hanchor => hleast i hi ?_⟩
  · rw [← List.getElem?_drop, List.getElem?_eq_getElem hlt, heq]
  · rw [← List.getElem?_drop, List.getElem?_eq_some_iff] at hanchor
    exact hanchor.2

variable (hs : s.length ≤ longest) (hregion : region.length ≤ longest)
include hs hregion

/-- At the anchor position of the start `w`, the search ends with `w` when that is a match. Otherwise
it goes on at a later start, from which the walk meets the same. -/
theorem settle_cases {found : UInt64} (hfound : found.toNat = w + s.anchorIndex)
    (hbyte : region[found.toNat]? = some s.anchorByte) :
    (settle s region (UInt64.ofNat s.jump) found = pure (.ended (some (UInt64.ofNat w))) ∧
        (s.walk region w).head? = some w) ∨
      ∃ onward, settle s region (UInt64.ofNat s.jump) found = pure (.onward onward) ∧
        onward.toNat = w + s.jump + s.anchorIndex ∧
        s.walk region w = s.walk region (w + s.jump) := by
  have hanchor := toNat_anchorIndex hs
  have hjump := toNat_jump hs
  have hle := s.jump_le_length
  have hwithin : found.toNat < region.length := (List.getElem?_eq_some_iff.mp hbyte).1
  have hfits := fitsAt_eq hs hregion found
  rw [hfound, Signature.accept_tail] at hfits
  rw [hfound] at hbyte
  unfold settle
  rw [hfits, pure_bind]
  cases hm : s.matchesAt region w with
  | true =>
    obtain ⟨start, hsub, hstart⟩ := exists_sub (a := found) (b := anchorIndex s) (by omega)
    rw [hfound, hanchor, Nat.add_sub_cancel] at hstart
    refine Or.inl ⟨?_, ?_⟩
    · rw [if_pos rfl, hsub, pure_bind, eq_ofNat hstart]
    · rw [Signature.walk_cons hm, List.head?_cons]
  | false =>
    obtain ⟨onward, hadd, honward⟩ :=
      exists_add (a := found) (b := UInt64.ofNat s.jump) (by omega) (by omega)
    refine Or.inr ⟨onward, ?_, by omega, Signature.walk_jump_of_anchor hbyte hm⟩
    rw [if_neg Bool.false_ne_true, hadd, pure_bind]

/-- Once through the loop, where the cursor is the anchor position of the start `w`. The search ends
without a match when the walk from `w` meets nothing, it ends with the start that the walk meets
first, or it goes on at a later start, from which the walk meets the same. -/
theorem pass_cases {cursor : UInt64} (hcursor : cursor.toNat = w + s.anchorIndex) :
    (pass s region s.anchorByte (UInt64.ofNat s.jump) cursor = pure (.ended none) ∧
        s.walk region w = []) ∨
      (∃ start,
        pass s region s.anchorByte (UInt64.ofNat s.jump) cursor =
            pure (.ended (some (UInt64.ofNat start))) ∧
          (s.walk region w).head? = some start) ∨
      ∃ onward later,
        pass s region s.anchorByte (UInt64.ofNat s.jump) cursor = pure (.onward onward) ∧
          onward.toNat = later + s.anchorIndex ∧ w < later ∧ cursor.toNat < region.length ∧
          s.walk region w = s.walk region later := by
  have hlt := s.anchorIndex_lt_length
  unfold pass
  rcases Nat.lt_or_ge region.length cursor.toNat with hbeyond | hwithin
  · refine Or.inl ⟨?_, Signature.walk_of_length_lt (by omega)⟩
    rw [sliceFrom?_eq_none hbeyond]
  rw [sliceFrom?_eq hwithin]
  cases hidx : (region.drop cursor.toNat).idxOf? s.anchorByte with
  | none =>
    refine Or.inl ⟨by simp only [hidx], Signature.walk_eq_nil_of_not_mem ?_⟩
    rw [← hcursor]
    exact List.idxOf?_eq_none_iff.mp hidx
  | some distance =>
    obtain ⟨hhit, hgap⟩ := idxOf?_drop hidx
    have hinside : cursor.toNat + distance < region.length := (List.getElem?_eq_some_iff.mp hhit).1
    have hdistance : (UInt64.ofNat distance).toNat = distance := toNat_ofNat (by omega)
    obtain ⟨found, hadd, hsum⟩ :=
      exists_add (a := cursor) (b := UInt64.ofNat distance) (by omega) (by omega)
    rw [hdistance] at hsum
    have hfound : found.toNat = w + distance + s.anchorIndex := by omega
    -- nothing is met up to the start that the next anchor belongs to
    have hwalk : s.walk region w = s.walk region (w + distance) :=
      Signature.walk_add_of_not_anchor (hcursor ▸ hgap)
    simp only [hidx, hadd, pure_bind]
    rcases settle_cases hs hregion hfound (hsum ▸ hhit) with
      ⟨hsettle, hhead⟩ | ⟨onward, hsettle, honward, hnext⟩
    · exact Or.inr (Or.inl ⟨w + distance, hsettle, hwalk ▸ hhead⟩)
    · have hpos := s.jump_pos
      exact Or.inr (Or.inr ⟨onward, w + distance + s.jump, hsettle, honward, by omega, by omega,
        hwalk.trans hnext⟩)

/-- The loop ends in more rounds than bytes are left, and it comes to the start that the walk meets
first. -/
theorem passes_eq {rounds : Nat} (hrounds : region.length - w < rounds) {cursor : UInt64}
    (hcursor : cursor.toNat = w + s.anchorIndex) :
    passes s region s.anchorByte (UInt64.ofNat s.jump) rounds cursor =
      pure ((s.walk region w).head?.map UInt64.ofNat) := by
  induction rounds generalizing w cursor with
  | zero => exact absurd hrounds (Nat.not_lt_zero _)
  | succ rounds ih =>
    rw [passes]
    rcases pass_cases hs hregion hcursor with
      ⟨hpass, hwalk⟩ | ⟨start, hpass, hwalk⟩ | ⟨onward, later, hpass, honward, hlater, hin, hwalk⟩
    · rw [hpass, pure_bind, hwalk]
      rfl
    · rw [hpass, pure_bind, hwalk]
      rfl
    · -- fewer bytes are left behind the later start
      rw [hpass, pure_bind, hwalk]
      exact ih (by omega) honward

end Loop

/-! ## 4. The first match -/

section First

variable {s : Signature} {region : List UInt8} {start : Nat}

/-- A match lies in the region. -/
theorem add_length_le_of_firstStart? (h : s.firstStart? region = some start) :
    start + s.length ≤ region.length := by
  rw [Signature.firstStart?_eq_head?] at h
  have hmatch := Signature.matchesAt_of_mem_walk (List.mem_of_head? h)
  exact (Signature.matchesAt_iff.mp hmatch).1

/-- A start that is a length of something in memory is not negative when it is taken for a
position. -/
theorem report_eq (h : start ≤ longest) :
    report s (UInt64.ofNat start) = pure (s.position start) := by
  have hvalue : (UInt64.ofNat start).toInt64.toInt = start := by
    rw [UInt64.toInt64_ofNat']
    exact Int64.toInt_ofNat_of_lt (Nat.lt_succ_of_le h)
  have hnonneg : ¬ (UInt64.ofNat start).toInt64 < 0 := by
    rw [Int64.not_lt, Int64.le_iff_toInt_le, hvalue]
    exact Int.natCast_nonneg start
  unfold report
  rw [if_neg hnonneg, hvalue]
  rfl

variable (hs : s.length ≤ longest)
include hs

theorem element_anchorIndex : element s.bytes (anchorIndex s) = pure s.anchorByte := by
  have hbyte : s.bytes[s.anchorIndex]? = some s.anchorByte := by
    rw [Signature.bytes, List.getElem?_map, s.slots_anchorIndex]
    rfl
  rw [element, toNat_anchorIndex hs, hbyte]

variable (hregion : region.length ≤ longest) {rounds : Nat} (hrounds : region.length < rounds)
include hregion hrounds

theorem firstStart_eq :
    firstStart s region rounds = pure ((s.firstStart? region).map UInt64.ofNat) := by
  have hcursor : (anchorIndex s).toNat = 0 + s.anchorIndex := by
    rw [toNat_anchorIndex hs, Nat.zero_add]
  rw [firstStart, element_anchorIndex hs, pure_bind, sub_anchorIndex hs, pure_bind,
    passes_eq hs hregion hrounds hcursor, Signature.firstStart?_eq_head?]

theorem find_eq : find s region rounds = pure (s.find? region) := by
  rw [find, firstStart_eq hs hregion hrounds, pure_bind, Signature.find?]
  cases hfirst : s.firstStart? region with
  | none => rfl
  | some start =>
    have hfits := add_length_le_of_firstStart? hfirst
    simp only [Option.map_some]
    rw [report_eq (by omega), pure_bind]

end First

/-! ## 5. One match after another -/

section Next

variable {s : Signature} {region : List UInt8} {m : Matches} {c : Cursor}

/-- A place in the series and a cursor say the same. -/
structure Agrees (region : List UInt8) (m : Matches) (c : Cursor) : Prop where
  consumed : m.consumed.toNat = c.passed
  within : c.passed ≤ region.length
  rest : c.rest = region.drop c.passed
  done : m.done = c.finished

theorem agrees_start (region : List UInt8) : Agrees region {} { rest := region } where
  consumed := rfl
  within := Nat.zero_le _
  rest := rfl
  done := rfl

theorem Agrees.sliceFrom? (h : Agrees region m c) :
    sliceFrom? region m.consumed = some c.rest := by
  have hwithin : m.consumed.toNat ≤ region.length := h.consumed ▸ h.within
  rw [sliceFrom?_eq hwithin, h.consumed, h.rest]

/-- Behind a match, a place and a cursor still say the same. -/
theorem Agrees.behind (h : Agrees region m c) {relative : Nat} {consumed : UInt64}
    (hconsumed : consumed.toNat = c.passed + relative + 1)
    (hwithin : c.passed + relative + 1 ≤ region.length) :
    Agrees region { m with consumed }
      { c with rest := c.rest.drop (relative + 1), passed := c.passed + relative + 1 } where
  consumed := hconsumed
  within := hwithin
  rest := by
    show c.rest.drop (relative + 1) = region.drop (c.passed + relative + 1)
    rw [h.rest, List.drop_drop, Nat.add_assoc]
  done := h.done

variable (hs : s.length ≤ longest) (hregion : region.length ≤ longest)
variable {rounds : Nat} (hrounds : region.length < rounds)
include hs hregion hrounds

/-- One call gives what a step of the cursor gives, and they still say the same behind it. -/
theorem next_eq (h : Agrees region m c) :
    ∃ m', next s region rounds m = pure ((c.next s).1.map s.position, m') ∧
      Agrees region m' (c.next s).2 := by
  have hconsumed := h.consumed
  have hwithin := h.within
  unfold next Cursor.next
  rw [h.done, h.sliceFrom?]
  by_cases hfinished : c.finished = true
  · rw [if_pos hfinished, if_pos hfinished]
    exact ⟨m, rfl, h⟩
  have hlength : c.rest.length = region.length - c.passed := by rw [h.rest, List.length_drop]
  have hsearch : firstStart s c.rest rounds = pure ((s.firstStart? c.rest).map UInt64.ofNat) :=
    firstStart_eq hs (by omega) (by omega)
  rw [if_neg hfinished, if_neg hfinished]
  simp only [hsearch, pure_bind]
  cases hfirst : s.firstStart? c.rest with
  | none => exact ⟨{ m with done := true }, rfl, { h with done := rfl }⟩
  | some relative =>
    have hfits := add_length_le_of_firstStart? hfirst
    have hpos := s.length_pos
    have hrelative : (UInt64.ofNat relative).toNat = relative := toNat_ofNat (by omega)
    -- A match fits into its region, so neither sum leaves the words.
    obtain ⟨start, hadd, hsum⟩ :=
      exists_add (a := m.consumed) (b := UInt64.ofNat relative) (by omega) (by omega)
    have hstart : start.toNat = c.passed + relative := by omega
    have hone : (1 : UInt64).toNat = 1 := rfl
    obtain ⟨consumed, hsucc, hbehind⟩ :=
      exists_add (a := start) (b := 1) (by omega) (by rw [hone, longest_eq]; omega)
    have hreport : report s start = pure (s.position (c.passed + relative)) := by
      rw [eq_ofNat hstart, report_eq (by omega)]
    refine ⟨{ m with consumed }, ?_, h.behind (by omega) (by omega)⟩
    simp only [Option.map_some, hadd, hsucc, hreport, pure_bind, h.done]

/-- Calls from a place where a cursor stands give the starts that the cursor has still to give, and
nothing behind the last of them. -/
theorem calls_eq (h : Agrees region m c) (n : Nat) :
    ∃ m' c', calls s region rounds m n =
        pure ((List.range n).map fun i => (c.remaining s)[i]?.map s.position, m') ∧
      Agrees region m' c' ∧ c'.remaining s = (c.remaining s).drop n := by
  induction n with
  | zero => exact ⟨m, c, rfl, h, rfl⟩
  | succ n ih =>
    obtain ⟨m', c', hcalls, hagrees, hremaining⟩ := ih
    obtain ⟨m'', hnext, hagrees'⟩ := next_eq hs hregion hrounds hagrees
    refine ⟨m'', (c'.next s).2, ?_, hagrees', ?_⟩
    · rw [calls, hcalls, pure_bind]
      simp only [hnext, pure_bind]
      rw [Cursor.next_fst, hremaining, List.head?_drop, List.range_succ, List.map_append]
      rfl
    · rw [Cursor.remaining_next, hremaining, List.tail_drop]

end Next

/-! ## 6. All searches of a region -/

section All

variable {s : Signature} {region : List UInt8}

/-- There are no more matches than places for the signature in the region. -/
theorem length_positions_le (s : Signature) (region : List UInt8) :
    (s.positions (.every none) region).length ≤ region.length + 1 - s.length := by
  rw [Signature.positions, Signature.starts_every, List.length_map]
  exact s.length_walk_le region 0

/-- From an anchor position on, going once through the loop meets no trap. If the search goes on,
then the position was in the region and the next one is greater. -/
theorem exists_pass (hs : s.length ≤ longest) (hregion : region.length ≤ longest) {cursor : UInt64}
    (hcursor : s.anchorIndex ≤ cursor.toNat) :
    ∃ p, pass s region s.anchorByte (UInt64.ofNat s.jump) cursor = pure p ∧
      ∀ onward, p = .onward onward → cursor < onward ∧ cursor.toNat ≤ region.length := by
  have hstart : cursor.toNat = cursor.toNat - s.anchorIndex + s.anchorIndex := by omega
  rcases pass_cases hs hregion hstart with
    ⟨hpass, _⟩ | ⟨start, hpass, _⟩ | ⟨onward, later, hpass, honward, hlater, hwithin, _⟩
  · exact ⟨_, hpass, fun onward h => Pass.noConfusion h⟩
  · exact ⟨_, hpass, fun onward h => Pass.noConfusion h⟩
  · refine ⟨_, hpass, fun onward' h => ?_⟩
    cases h
    exact ⟨UInt64.lt_iff_toNat_lt.mpr (by omega), Nat.le_of_lt hwithin⟩

/-- Searches of a region that fits in memory meet no trap, for a signature that fits in memory, and
their loops end in at most one round more than the region has bytes. A search for one match and any
number of calls for the next one give what `Signature.find?` and `Signature.positions` say, and the
calls never pass more bytes than there are. The loop goes on only from a position in the region and
only to a greater one, and there are no more matches than places for the signature. -/
theorem search_meets_no_trap (s : Signature) (region : List UInt8) (hs : s.length ≤ longest)
    (hregion : region.length ≤ longest) (rounds : Nat) (hrounds : region.length < rounds) :
    find s region rounds = pure (s.find? region) ∧
      (∀ n, ∃ m, calls s region rounds {} n =
          pure ((List.range n).map fun i => (s.positions (.every none) region)[i]?, m) ∧
        m.consumed.toNat ≤ region.length) ∧
      (∀ cursor : UInt64, s.anchorIndex ≤ cursor.toNat →
        ∃ p, pass s region s.anchorByte (UInt64.ofNat s.jump) cursor = pure p ∧
          ∀ onward, p = .onward onward → cursor < onward ∧ cursor.toNat ≤ region.length) ∧
      (s.positions (.every none) region).length ≤ region.length + 1 - s.length := by
  refine ⟨find_eq hs hregion hrounds, fun n => ?_, fun cursor => exists_pass hs hregion,
    length_positions_le s region⟩
  obtain ⟨m, c, hcalls, hagrees, _⟩ := calls_eq hs hregion hrounds (agrees_start region) n
  refine ⟨m, ?_, hagrees.consumed ▸ hagrees.within⟩
  simp only [hcalls, Cursor.remaining_start, Signature.positions, Signature.starts_every,
    List.getElem?_map]

/-- Two matches of `AA` in `AAA`, and then none. -/
theorem search_AAA :
    let s : Signature := ⟨[.exact 0x41, .exact 0x41], 0, rfl⟩
    let region : List UInt8 := [0x41, 0x41, 0x41]
    s.length ≤ longest ∧ region.length ≤ longest ∧ find s region 4 = pure (some 0) ∧
      ∃ m, calls s region 4 {} 4 = pure ([some 0, some 1, none, none], m) ∧
        m.consumed.toNat ≤ region.length := by
  intro s region
  have hs : s.length ≤ longest := by decide
  have hregion : region.length ≤ longest := by decide
  have hfirst : s.find? region = some 0 := by decide
  have hevery : s.positions (.every none) region = [0, 1] := by decide
  obtain ⟨hfind, hcalls, _⟩ := search_meets_no_trap s region hs hregion 4 (by decide)
  rw [hfirst] at hfind
  rw [hevery] at hcalls
  exact ⟨hs, hregion, hfind, hcalls 4⟩

end All

end Machine

end ByteScan
