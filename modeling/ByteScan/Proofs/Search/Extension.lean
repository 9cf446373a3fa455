import ByteScan.Proofs.Search.Series

/-!
# Searching a longer region

Bytes behind a region can make matches out of candidates that reached over its end. They change
nothing about the matches in front: the walks over the two regions take the same steps up to the
first candidate that does not lie in the shorter one, and the walk over the shorter one ends there.

Results:
1. `candidateFrom?_append`, `walk_append`: what is met in a region is what is met in a longer one,
   cut to the starts where the signature lies in the region.
2. `starts_append`: the same for all starts, with what follows for the reported positions and for
   the first one.
-/

namespace ByteScan.Signature

/-! ## 1. The two walks -/

section Walks

variable {s : Signature} {region : List UInt8} {start w c : Nat}

/-- A start where the signature does not lie in the region is followed by no other where it does. -/
theorem fits_eq_false_of_le (h : s.fits region c = false) (hle : c ≤ start) :
    s.fits region start = false := by
  unfold fits at h ⊢
  rw [decide_eq_false_iff_not] at h ⊢
  omega

/-- So nothing that is met from there on lies in the region. -/
theorem filter_fits_eq_nil {starts : List Nat} (h : s.fits region c = false)
    (hle : ∀ p ∈ starts, c ≤ p) : starts.filter (s.fits region) = [] := by
  rw [List.filter_eq_nil_iff]
  intro p hp
  rw [fits_eq_false_of_le h (hle p hp)]
  exact Bool.false_ne_true

theorem isCandidate_append (more : List UInt8) (h : s.fits region start = true) :
    s.isCandidate (region ++ more) start = s.isCandidate region start := by
  have hanchor := s.anchorIndex_lt_length
  have hfits := fits_iff.mp h
  rw [Bool.eq_iff_iff, isCandidate_iff, isCandidate_iff, List.length_append,
    List.getElem?_append_left (by omega)]
  exact and_congr_left fun _ => by omega

theorem matchesAt_append (more : List UInt8) (h : s.fits region start = true) :
    s.matchesAt (region ++ more) start = s.matchesAt region start := by
  have hfits := fits_iff.mp h
  rw [Bool.eq_iff_iff, matchesAt_iff, matchesAt_iff, List.length_append]
  refine and_congr (by omega) ?_
  refine forall_congr' fun i => forall_congr' fun b => imp_congr_right fun hslot => ?_
  have hi : i < s.length := (List.getElem?_eq_some_iff.mp hslot).1
  rw [List.getElem?_append_left (by omega)]

/-- A longer region has all the candidates of the shorter one. -/
theorem isCandidate_eq_false_of_append {more : List UInt8}
    (h : s.isCandidate (region ++ more) start = false) : s.isCandidate region start = false := by
  cases hfits : s.fits region start with
  | true => rw [← isCandidate_append more hfits, h]
  | false => rw [isCandidate, hfits, Bool.false_and]

/-- The least candidate of a region is that of a longer one, if the signature lies in the region
there, and otherwise there is none. -/
theorem candidateFrom?_append (s : Signature) (region more : List UInt8) (w : Nat) :
    s.candidateFrom? region w = (s.candidateFrom? (region ++ more) w).filter (s.fits region) := by
  cases hlong : s.candidateFrom? (region ++ more) w with
  | none =>
    rw [candidateFrom?_eq_none] at hlong
    rw [Option.filter_none, candidateFrom?_eq_none]
    exact fun start hw => isCandidate_eq_false_of_append (hlong start hw)
  | some c =>
    obtain ⟨hc, hw, hleast⟩ := candidateFrom?_eq_some.mp hlong
    cases hfits : s.fits region c with
    | true =>
      rw [isCandidate_append more hfits] at hc
      rw [Option.filter_some_pos hfits, candidateFrom?_eq_some]
      exact ⟨hc, hw, fun start hstart hlt =>
        isCandidate_eq_false_of_append (hleast start hstart hlt)⟩
    | false =>
      rw [Option.filter_some_neg (by simp [hfits]), candidateFrom?_eq_none]
      intro start hstart
      -- in front of `c` nothing is a candidate in either region, and from `c` on nothing fits
      rcases Nat.lt_or_ge start c with hlt | hge
      · exact isCandidate_eq_false_of_append (hleast start hstart hlt)
      · rw [isCandidate, fits_eq_false_of_le hfits hge, Bool.false_and]

/-- The end of the shorter walk: the longer one goes on at a start that does not fit. -/
theorem walk_append_of_not_fits {more : List UInt8}
    (hc : s.candidateFrom? (region ++ more) w = some c) (hfits : s.fits region c = false) :
    s.walk region w = (s.walk (region ++ more) w).filter (s.fits region) := by
  have hshort := s.candidateFrom?_append region more w
  rw [hc, Option.filter_some_neg (by simp [hfits])] at hshort
  rw [walk_of_none hshort, filter_fits_eq_nil hfits]
  exact fun p hp => le_of_mem_walk_of_candidateFrom? hc hp

theorem walk_append (s : Signature) (region more : List UInt8) (w : Nat) :
    s.walk region w = (s.walk (region ++ more) w).filter (s.fits region) := by
  induction w using walk_induction s (region ++ more) with
  | finish w hc =>
    have hshort := s.candidateFrom?_append region more w
    rw [hc, Option.filter_none] at hshort
    rw [walk_of_none hshort, walk_of_none hc, List.filter_nil]
  | hit w c hc hm ih =>
    cases hfits : s.fits region c with
    | true =>
      have hshort := s.candidateFrom?_append region more w
      rw [hc, Option.filter_some_pos hfits] at hshort
      have hm' := (matchesAt_append more hfits).symm.trans hm
      rw [walk_of_match hshort hm', walk_of_match hc hm, List.filter_cons_of_pos hfits, ih]
    | false => exact walk_append_of_not_fits hc hfits
  | miss w c hc hm ih =>
    cases hfits : s.fits region c with
    | true =>
      have hshort := s.candidateFrom?_append region more w
      rw [hc, Option.filter_some_pos hfits] at hshort
      have hm' := (matchesAt_append more hfits).symm.trans hm
      rw [walk_of_miss hshort hm', walk_of_miss hc hm, ih]
    | false => exact walk_append_of_not_fits hc hfits

end Walks

/-! ## 2. All starts -/

/-- In ascending starts, those that fit come first. -/
theorem filter_fits_of_pairwise {s : Signature} {region : List UInt8} {starts : List Nat}
    (h : starts.Pairwise (· < ·)) : starts.filter (s.fits region) <+: starts := by
  induction starts with
  | nil => exact List.prefix_refl []
  | cons start starts ih =>
    obtain ⟨hlt, hrest⟩ := List.pairwise_cons.mp h
    cases hfits : s.fits region start with
    | true =>
      rw [List.filter_cons_of_pos hfits, List.prefix_cons_inj]
      exact ih hrest
    | false =>
      rw [List.filter_cons_of_neg (by simp [hfits]),
        filter_fits_eq_nil hfits fun p hp => Nat.le_of_lt (hlt p hp)]
      exact List.nil_prefix

theorem positions_append (s : Signature) (region more : List UInt8) :
    s.positions (.every none) region <+: s.positions (.every none) (region ++ more) := by
  rw [positions, positions, starts_every, starts_every, s.walk_append region more]
  exact (filter_fits_of_pairwise walk_pairwise).map s.position

/-- The starts of a region are those of a longer one where the signature lies in the region, in the
same order. So the positions in the region come first among those in the longer one, and a first
position remains the first. -/
theorem starts_append (s : Signature) (region more : List UInt8) :
    s.starts (.every none) region =
        (s.starts (.every none) (region ++ more)).filter
          (fun start => decide (start + s.length ≤ region.length)) ∧
      s.positions (.every none) region <+: s.positions (.every none) (region ++ more) ∧
      ∀ p, s.find? region = some p → s.find? (region ++ more) = some p := by
  have hprefix := s.positions_append region more
  refine ⟨?_, hprefix, fun p hp => ?_⟩
  · rw [starts_every, starts_every]
    exact s.walk_append region more 0
  · obtain ⟨rest, hrest⟩ := hprefix
    rw [find?_eq_head?] at hp ⊢
    rw [← hrest, List.head?_append, hp]
    rfl

/-- The first match of `A?` in `BABA` is the first one also when a `B` follows, which makes a match
of the last `A`. -/
theorem find?_BABA_B :
    let s : Signature := ⟨[.exact 0x41, .any], 0, rfl⟩
    s.find? [0x42, 0x41, 0x42, 0x41] = some 1 ∧
      s.find? ([0x42, 0x41, 0x42, 0x41] ++ [0x42]) = some 1 := by
  intro s
  have hfirst : s.find? [0x42, 0x41, 0x42, 0x41] = some 1 := by decide
  exact ⟨hfirst, (starts_append s [0x42, 0x41, 0x42, 0x41] [0x42]).2.2 1 hfirst⟩

end ByteScan.Signature
