import ByteScan.Proofs.Size.Rounding
import ByteScan.Proofs.Text.Decimal
import Mathlib.Tactic.Ring

/-!
# Sizes as they are read

The text of a size is read as a number of units, and so as a number of bytes. What is shown of a
greater size is not smaller, although the unit changes on the way and 53 bits are kept of the size. As
long as these are all of its bits, what is shown is off by no more than half of the last decimal.

The number is at least 1. In a unit other than the greatest it should be below 1024, but the unit is
chosen by the size itself and not by what is shown of it. A size just below a unit is shown as 1024.0
of the unit below.

* `Size.Shown`, `Size.read?`: a size as it is read, and how a text is read.
* `Size.divided`: the size divided by 1024 again and again.

Results:
1. `Size.read?_amount`: a number and a unit are read back.
2. `Size.divided_eq`: the unit at which dividing comes to an end; `Size.Unit.forSize_mono`: the unit of
   a greater size.
3. `Size.exists_tenths`: what is shown of a size.
4. `Size.number_bounds`: how great the number is. `Size.number_not_lt_1024`: a size that is shown in the
   wrong unit.
5. `Size.shown_mono_accurate`: greater sizes, and how much is lost.
-/

namespace ByteScan.Size

/-! ## Definitions -/

/-- A size as it is read: a number, and how many bytes the unit has. -/
structure Shown where
  number : ℚ
  unit : Nat
  deriving DecidableEq

/-- The size in bytes. -/
def Shown.bytes (s : Shown) : ℚ :=
  s.number * s.unit

/-- How many bytes the unit of this name has. -/
def unitNamed? : String → Option Nat
  | "B" => some 1
  | "KiB" => some 1024
  | "MiB" => some (1024 ^ 2)
  | "GiB" => some (1024 ^ 3)
  | "TiB" => some (1024 ^ 4)
  | _ => none

/-- A number in decimal digits, with or without places behind a point. -/
def number? (cs : List Char) : Option ℚ :=
  match cs.splitOn '.' with
  | [whole] => (Text.natural? whole).map Nat.cast
  | [whole, places] => do
    let n ← Text.natural? whole
    let m ← Text.natural? places
    return n + m / 10 ^ places.length
  | _ => none

/-- The size that a text says: a number and the name of a unit, with a space between them. -/
def read? (text : String) : Option Shown :=
  match text.toList.splitOn ' ' with
  | [number, name] => do
    let number ← number? number
    let unit ← unitNamed? (String.ofList name)
    return ⟨number, unit⟩
  | _ => none

/-- A number of units divided by 1024 as long as it is 1024 or more and there is a greater unit, and the
unit that it comes to. -/
def divided (x : ℚ) (unit : Unit) : List Unit → ℚ × Unit
  | [] => (x, unit)
  | greater :: units => if 1024 ≤ x then divided (x / 1024) greater units else (x, unit)

/-! ## 1. Reading a number and a unit -/

section Read

variable {number : String} {name : String} {x : ℚ} {unit : Nat}

theorem read?_amount (hnumber : ' ' ∉ number.toList) (hname : ' ' ∉ name.toList)
    (hx : number? number.toList = some x) (hunit : unitNamed? name = some unit) :
    read? (number ++ " " ++ name) = some ⟨x, unit⟩ := by
  have hchars : (number ++ " " ++ name).toList = number.toList ++ ' ' :: name.toList := by
    rw [String.toList_append, String.toList_append, List.append_assoc]
    rfl
  unfold read?
  rw [hchars, List.splitOn_append_cons_self, List.splitOn_eq_singleton hnumber,
    List.splitOn_eq_singleton hname]
  show (do
    let number ← number? number.toList
    let unit ← unitNamed? (String.ofList name.toList)
    return (⟨number, unit⟩ : Shown)) = _
  rw [hx, String.ofList_toList, hunit]
  rfl

theorem number?_whole (n : Nat) : number? (toString n).toList = some (n : ℚ) := by
  unfold number?
  rw [List.splitOn_eq_singleton (Text.not_mem_toString rfl n)]
  show (Text.natural? (toString n).toList).map Nat.cast = some (n : ℚ)
  rw [Text.natural?_toString]
  rfl

/-- Tenths are written with one place. -/
theorem number?_tenths (t : Nat) :
    number? (toString (t / 10) ++ "." ++ toString (t % 10)).toList = some (t / 10 : ℚ) := by
  have hchars : (toString (t / 10) ++ "." ++ toString (t % 10)).toList =
      (toString (t / 10)).toList ++ '.' :: (toString (t % 10)).toList := by
    rw [String.toList_append, String.toList_append, List.append_assoc]
    rfl
  have hplace : ∀ d : Fin 10, (toString d.val).toList.length = 1 := by decide
  have hvalue : (t : ℚ) = 10 * (t / 10 : Nat) + (t % 10 : Nat) := by
    exact_mod_cast (Nat.div_add_mod t 10).symm
  unfold number?
  rw [hchars, List.splitOn_append_cons_self, List.splitOn_eq_singleton (Text.not_mem_toString rfl _),
    List.splitOn_eq_singleton (Text.not_mem_toString rfl _)]
  show (do
    let n ← Text.natural? (toString (t / 10)).toList
    let m ← Text.natural? (toString (t % 10)).toList
    return (n + m / 10 ^ (toString (t % 10)).toList.length : ℚ)) = _
  rw [Text.natural?_toString, Text.natural?_toString, hplace ⟨t % 10, Nat.mod_lt t (by decide)⟩]
  refine congrArg some ?_
  rw [pow_one, hvalue]
  ring

end Read

/-! ## 2. The unit -/

namespace Unit

theorem unitNamed?_name (u : Unit) : unitNamed? u.name = some u.bytes := by
  cases u <;> rfl

theorem space_not_mem_name (u : Unit) : ' ' ∉ u.name.toList := by
  cases u <;> decide

theorem bytes_pos (u : Unit) : 0 < u.bytes := by
  cases u <;> decide

theorem cast_bytes_pos (u : Unit) : (0 : ℚ) < u.bytes :=
  Nat.cast_pos.mpr u.bytes_pos

theorem le_bytes (u : Unit) : 1024 ≤ u.bytes := by
  cases u <;> decide

/-- Of two different units the greater one has at least 1024 of the other. -/
theorem bytes_cases (u v : Unit) : u = v ∨ (u ≠ tib ∧ 1024 * u.bytes ≤ v.bytes) ∨
    (v ≠ tib ∧ 1024 * v.bytes ≤ u.bytes) := by
  cases u <;> cases v <;> decide

section ForSize

variable {n : Nat}

theorem bytes_forSize_le (h : 1024 ≤ n) : (forSize n).bytes ≤ n := by
  unfold forSize
  split_ifs with hmib hgib htib
  · exact h
  · exact Nat.le_of_not_lt hmib
  · exact Nat.le_of_not_lt hgib
  · exact Nat.le_of_not_lt htib

theorem lt_of_forSize_ne_tib (h : forSize n ≠ tib) : n < 1024 * (forSize n).bytes := by
  unfold forSize at h ⊢
  split_ifs at h ⊢ with hmib hgib htib
  · exact hmib
  · exact hgib
  · exact htib
  · exact absurd rfl h

theorem lt_tib_of_forSize_ne_tib (h : forSize n ≠ tib) : n < tib.bytes := by
  by_contra hge
  refine h ?_
  have hmib : ¬ n < mib.bytes := fun hlt => hge (hlt.trans (by decide))
  have hgib : ¬ n < gib.bytes := fun hlt => hge (hlt.trans (by decide))
  rw [forSize, if_neg hmib, if_neg hgib, if_neg hge]

/-- The unit of a greater size is the same, or at least the next one. -/
theorem forSize_mono {m : Nat} (hm : 1024 ≤ m) (h : m ≤ n) : forSize m = forSize n ∨
    forSize m ≠ tib ∧ 1024 * (forSize m).bytes ≤ (forSize n).bytes := by
  rcases bytes_cases (forSize m) (forSize n) with heq | hless | ⟨hne, hgreater⟩
  · exact .inl heq
  · exact .inr hless
  · have hlow := bytes_forSize_le hm
    have hhigh := lt_of_forSize_ne_tib hne
    omega

end ForSize

end Unit

/-- One step: the division is made unless the size is below the next unit. -/
theorem divided_cons (n : Nat) {unit greater : Unit} (h : greater.bytes = 1024 * unit.bytes)
    (units : List Unit) : divided (n / unit.bytes) unit (greater :: units) =
      if n < greater.bytes then ((n / unit.bytes : ℚ), unit)
      else divided (n / greater.bytes) greater units := by
  have hgreater : (n / unit.bytes / 1024 : ℚ) = n / greater.bytes := by
    rw [h, Nat.cast_mul, div_div, mul_comm (unit.bytes : ℚ)]
    rfl
  have hle : (1024 : ℚ) ≤ n / unit.bytes ↔ ¬ n < greater.bytes := by
    rw [le_div_iff₀ unit.cast_bytes_pos, h, Nat.not_lt]
    exact_mod_cast Iff.rfl
  simp only [divided, hle, hgreater, ite_not]

/-- Dividing comes to an end at the greatest unit that is not above the size. -/
theorem divided_eq (n : Nat) :
    divided (n / Unit.kib.bytes) .kib [.mib, .gib, .tib] =
      ((n / (Unit.forSize n).bytes : ℚ), Unit.forSize n) := by
  rw [divided_cons n rfl, divided_cons n rfl, divided_cons n rfl, Unit.forSize]
  split_ifs <;> rfl

/-! ## 3. What is shown of a size -/

section Text

variable {n : Nat}

theorem read?_text_of_lt (h : n < 1024) : read? (text n) = some ⟨n, 1⟩ := by
  have htext : text n = toString n ++ " " ++ "B" := by
    rw [text, if_pos h, String.append_assoc]
    rfl
  rw [htext]
  exact read?_amount (Text.not_mem_toString rfl n) (by decide) (number?_whole n) rfl

theorem le_significant (h : 1024 ≤ n) : 1024 ≤ significant n :=
  significant_mono h

/-- Below the greatest unit all bits of a size are kept. -/
theorem significant_of_forSize_ne_tib (h : Unit.forSize (significant n) ≠ .tib) :
    significant n = n := by
  refine significant_of_lt ?_
  by_contra hge
  have hkept : significant Unit.tib.bytes = Unit.tib.bytes := significant_of_lt (by decide)
  have hle : Unit.tib.bytes ≤ n := Nat.le_trans (by decide) (Nat.le_of_not_lt hge)
  have hmono := significant_mono hle
  rw [hkept] at hmono
  exact Nat.not_lt_of_le hmono (Unit.lt_tib_of_forSize_ne_tib h)

/-- What is shown of a size that is not shown in bytes: so many tenths of the unit as are nearest to
what is kept of the size. -/
theorem exists_tenths (h : 1024 ≤ n) :
    let unit := Unit.forSize (significant n)
    ∃ t : Nat, read? (text n) = some ⟨t / 10, unit.bytes⟩ ∧
      Nearest (10 * (significant n / unit.bytes)) t := by
  intro unit
  refine ⟨tenths (significant n) unit, ?_, ?_⟩
  · have htext : text n = toString (tenths (significant n) unit / 10) ++ "." ++
        toString (tenths (significant n) unit % 10) ++ " " ++ unit.name := by
      rw [text, if_neg (Nat.not_lt_of_le h)]
      rfl
    have hspace : ' ' ∉ (toString (tenths (significant n) unit / 10) ++ "." ++
        toString (tenths (significant n) unit % 10)).toList := by
      simp only [String.toList_append, List.mem_append, not_or]
      exact ⟨⟨Text.not_mem_toString rfl _, by decide⟩, Text.not_mem_toString rfl _⟩
    rw [htext]
    exact read?_amount hspace unit.space_not_mem_name (number?_tenths _) unit.unitNamed?_name
  · have hnearest := nearest_roundDiv (10 * significant n) unit.bytes_pos
    rwa [Nat.cast_mul, mul_div_assoc] at hnearest

section Tenths

variable {t : Nat} (ht : Nearest (10 * (significant n / (Unit.forSize (significant n)).bytes)) t)
include ht

/-- A size is shown as one unit at least. -/
theorem ten_le_tenths (h : 1024 ≤ n) : 10 ≤ t := by
  have hone : (1 : ℚ) ≤ significant n / (Unit.forSize (significant n)).bytes := by
    rw [one_le_div (Unit.cast_bytes_pos _)]
    exact_mod_cast Unit.bytes_forSize_le (le_significant h)
  exact (nearest_natCast 10).mono ht (by push_cast; linarith)

/-- A size is shown as at most one of the next unit. -/
theorem tenths_le (h : Unit.forSize (significant n) ≠ .tib) : t ≤ 10240 := by
  have hlt : (significant n / (Unit.forSize (significant n)).bytes : ℚ) < 1024 := by
    rw [div_lt_iff₀ (Unit.cast_bytes_pos _)]
    exact_mod_cast Unit.lt_of_forSize_ne_tib h
  exact ht.mono (nearest_natCast 10240) (by push_cast; linarith)

end Tenths

end Text

/-! ## 4. How great the number is -/

/-- The number that is shown is at least 1, and in a unit other than the greatest it is at most 1024.
It is 1024 where the size is within a twentieth of the unit below the next unit. -/
theorem number_bounds {n : Nat} (h : 1024 ≤ n) :
    ∃ number, ∃ unit : Unit, read? (text n) = some ⟨number, unit.bytes⟩ ∧ 1 ≤ number ∧
      (unit ≠ .tib →
        number ≤ 1024 ∧ (number = 1024 ↔ (1024 - 1 / 20 : ℚ) * unit.bytes ≤ n)) := by
  obtain ⟨t, hread, ht⟩ := exists_tenths h
  refine ⟨t / 10, Unit.forSize (significant n), hread, ?_, fun hunit => ⟨?_, ?_⟩⟩
  · have hten : (10 : ℚ) ≤ t := by exact_mod_cast ten_le_tenths ht h
    linarith
  · have hle : (t : ℚ) ≤ 10240 := by exact_mod_cast tenths_le ht hunit
    linarith
  · have hkept := significant_of_forSize_ne_tib hunit
    have hlt := Unit.lt_of_forSize_ne_tib hunit
    rw [hkept] at ht hlt ⊢
    generalize Unit.forSize n = unit at *
    have hsize : (n / unit.bytes : ℚ) < 1024 := by
      rw [div_lt_iff₀ unit.cast_bytes_pos]
      exact_mod_cast hlt
    -- The number is 1024 exactly if 10240 is the nearest count of tenths.
    rw [← le_div_iff₀ unit.cast_bytes_pos]
    constructor
    · intro hnumber
      have hlow := ht.low
      linarith
    · intro hle
      have hlast : Nearest (10 * (n / unit.bytes)) 10240 :=
        ⟨by push_cast; linarith, by push_cast; linarith, fun _ => rfl⟩
      rw [ht.unique hlast]
      norm_num

/-- The size one byte below a mebibyte. -/
theorem number_bounds_1048575 :
    1024 ≤ 1048575 ∧
      ∃ number, ∃ unit : Unit, read? (text 1048575) = some ⟨number, unit.bytes⟩ ∧ 1 ≤ number ∧
        (unit ≠ .tib →
          number ≤ 1024 ∧ (number = 1024 ↔ (1024 - 1 / 20 : ℚ) * unit.bytes ≤ (1048575 : Nat))) :=
  ⟨by decide, number_bounds (by decide)⟩

/-- The number is not below 1024 in every unit other than the greatest: the size one byte below a
mebibyte is shown as 1024.0 KiB. -/
theorem number_not_lt_1024 :
    ¬ ∀ n, 1024 ≤ n → n < UInt64.size →
      ∃ number unit, read? (text n) = some ⟨number, unit⟩ ∧ 1 ≤ number ∧
        (unit ≠ Unit.tib.bytes → number < 1024) := by
  intro h
  obtain ⟨number, unit, hread, -, hlt⟩ := h 1048575 (by decide) (by decide)
  have hshown : read? (text 1048575) = some ⟨1024, 1024⟩ := by decide +kernel
  rw [hshown] at hread
  obtain ⟨rfl, rfl⟩ := Shown.mk.inj (Option.some.inj hread)
  exact lt_irrefl _ (hlt (by decide))

/-! ## 5. Greater sizes, and how much is lost -/

section Bytes

variable {m n s t : Nat} {unit unit' : Unit}

theorem bytes_whole (n : Nat) : (⟨n, 1⟩ : Shown).bytes = n := by
  rw [Shown.bytes, Nat.cast_one, mul_one]

theorem bytes_tenths (t : Nat) (unit : Unit) :
    (⟨t / 10, unit.bytes⟩ : Shown).bytes = t * (unit.bytes / 10) := by
  rw [Shown.bytes]
  ring

/-- More tenths of the same unit are more bytes. -/
theorem bytes_le_of_le (h : s ≤ t) :
    (⟨s / 10, unit.bytes⟩ : Shown).bytes ≤ (⟨t / 10, unit.bytes⟩ : Shown).bytes := by
  have hunit := unit.cast_bytes_pos
  have hcast : (s : ℚ) ≤ t := by exact_mod_cast h
  rw [bytes_tenths, bytes_tenths]
  exact mul_le_mul_of_nonneg_right hcast (by linarith)

/-- Ten tenths are one of the unit. -/
theorem le_bytes_of_ten_le (h : 10 ≤ t) :
    (unit.bytes : ℚ) ≤ (⟨t / 10, unit.bytes⟩ : Shown).bytes :=
  calc (unit.bytes : ℚ)
    _ = (⟨(10 : Nat) / 10, unit.bytes⟩ : Shown).bytes := by rw [bytes_tenths]; push_cast; ring
    _ ≤ (⟨t / 10, unit.bytes⟩ : Shown).bytes := bytes_le_of_le h

/-- What is at most 1024 of a unit is at most one of a greater unit. -/
theorem bytes_le_of_greater (hs : s ≤ 10240) (ht : 10 ≤ t) (h : 1024 * unit.bytes ≤ unit'.bytes) :
    (⟨s / 10, unit.bytes⟩ : Shown).bytes ≤ (⟨t / 10, unit'.bytes⟩ : Shown).bytes := by
  have hunits : (1024 * unit.bytes : ℚ) ≤ unit'.bytes := by exact_mod_cast h
  calc (⟨s / 10, unit.bytes⟩ : Shown).bytes
    _ ≤ (⟨(10240 : Nat) / 10, unit.bytes⟩ : Shown).bytes := bytes_le_of_le hs
    _ = 1024 * unit.bytes := by rw [bytes_tenths]; push_cast; ring
    _ ≤ unit'.bytes := hunits
    _ ≤ (⟨t / 10, unit'.bytes⟩ : Shown).bytes := le_bytes_of_ten_le ht

/-- The tenths that are nearest to a size are half a tenth of the unit away from it at most. -/
theorem abs_bytes_sub_le (h : Nearest (10 * (n / unit.bytes)) t) :
    |(⟨t / 10, unit.bytes⟩ : Shown).bytes - n| ≤ unit.bytes / 20 := by
  have hunit := unit.cast_bytes_pos
  have hdiff : (⟨t / 10, unit.bytes⟩ : Shown).bytes - n =
      (t - 10 * (n / unit.bytes)) * (unit.bytes / 10) := by
    rw [bytes_tenths]
    field_simp
  calc |(⟨t / 10, unit.bytes⟩ : Shown).bytes - n|
    _ = |(t - 10 * (n / unit.bytes) : ℚ)| * (unit.bytes / 10) := by
      rw [hdiff, abs_mul, abs_of_pos (by linarith : (0 : ℚ) < unit.bytes / 10)]
    _ ≤ 1 / 2 * (unit.bytes / 10) := mul_le_mul_of_nonneg_right h.abs_sub_le (by linarith)
    _ = unit.bytes / 20 := by ring

/-- What is shown of a greater size is not smaller. -/
theorem exists_bytes_le (h : m ≤ n) :
    ∃ a b, read? (text m) = some a ∧ read? (text n) = some b ∧ a.bytes ≤ b.bytes := by
  rcases Nat.lt_or_ge n 1024 with hn | hn
  · refine ⟨_, _, read?_text_of_lt (h.trans_lt hn), read?_text_of_lt hn, ?_⟩
    rw [bytes_whole, bytes_whole]
    exact_mod_cast h
  obtain ⟨t, hread, ht⟩ := exists_tenths hn
  have hten := ten_le_tenths ht hn
  rcases Nat.lt_or_ge m 1024 with hm | hm
  · refine ⟨_, _, read?_text_of_lt hm, hread, le_trans ?_ (le_bytes_of_ten_le hten)⟩
    rw [bytes_whole]
    exact_mod_cast hm.le.trans (Unit.le_bytes _)
  obtain ⟨s, hread', hs⟩ := exists_tenths hm
  refine ⟨_, _, hread', hread, ?_⟩
  rcases Unit.forSize_mono (le_significant hm) (significant_mono h) with heq | ⟨hne, hgreater⟩
  · have hkept : (significant m : ℚ) ≤ significant n := by exact_mod_cast significant_mono h
    rw [heq] at hs ⊢
    have hpos := (Unit.forSize (significant n)).cast_bytes_pos
    have hunits := div_le_div_of_nonneg_right hkept hpos.le
    exact bytes_le_of_le (hs.mono ht (by linarith))
  · exact bytes_le_of_greater (tenths_le hs hne) hten hgreater

/-- As long as all bits of a size are kept, half of the last decimal is lost at most. -/
theorem exists_abs_bytes_sub_le (h : n < 2 ^ 53) :
    ∃ a, read? (text n) = some a ∧ |a.bytes - n| ≤ a.unit / 20 ∧ (n < 1024 → a.bytes = n) := by
  rcases Nat.lt_or_ge n 1024 with hn | hn
  · refine ⟨_, read?_text_of_lt hn, ?_, fun _ => bytes_whole n⟩
    rw [bytes_whole, sub_self, abs_zero]
    positivity
  · obtain ⟨t, hread, ht⟩ := exists_tenths hn
    refine ⟨_, hread, ?_, fun hlt => absurd hlt (Nat.not_lt_of_le hn)⟩
    rw [significant_of_lt h] at ht ⊢
    exact abs_bytes_sub_le ht

/-- The text of a size says the tenths that are nearest to the quotient at which dividing by 1024 comes
to an end. What is divided is the multiple of the step that is nearest to the size. -/
theorem exists_nearest_tenths (h : 1024 ≤ n) : ∃ k t : Nat, ∃ x, ∃ unit : Unit,
    Nearest (n / step n) k ∧
      divided ((k * step n : Nat) / Unit.kib.bytes) .kib [.mib, .gib, .tib] = (x, unit) ∧
        Nearest (10 * x) t ∧ read? (text n) = some ⟨t / 10, unit.bytes⟩ := by
  obtain ⟨k, hkept, hk⟩ := nearest_significant n
  obtain ⟨t, hread, ht⟩ := exists_tenths h
  rw [hkept] at hread ht
  exact ⟨k, t, _, _, hk, divided_eq (k * step n), ht, hread⟩

end Bytes

/-- What is shown of sizes, as it is read. What is shown of a greater size is not smaller. Below 2^53 it
differs from the size by a twentieth of the unit at most, and below 1024 not at all. From 1024 on it is
the size rounded to 53 bits, divided by 1024 as often as it goes, and rounded to one decimal, each time
to the nearest number and to the even one of two. -/
theorem shown_mono_accurate :
    (∀ m n, m ≤ n →
        ∃ a b, read? (text m) = some a ∧ read? (text n) = some b ∧ a.bytes ≤ b.bytes) ∧
      (∀ n < 2 ^ 53,
        ∃ a, read? (text n) = some a ∧ |a.bytes - n| ≤ a.unit / 20 ∧ (n < 1024 → a.bytes = n)) ∧
      ∀ n, 1024 ≤ n → ∃ k t : Nat, ∃ x, ∃ unit : Unit, Nearest (n / step n) k ∧
        divided ((k * step n : Nat) / Unit.kib.bytes) .kib [.mib, .gib, .tib] = (x, unit) ∧
          Nearest (10 * x) t ∧ read? (text n) = some ⟨t / 10, unit.bytes⟩ :=
  ⟨fun _ _ => exists_bytes_le, fun _ => exists_abs_bytes_sub_le, fun _ => exists_nearest_tenths⟩

/-- Two sizes at the border of two units, and one that is rounded to 53 bits. -/
theorem shown_mono_accurate_1048575 :
    (1048575 ≤ 1048576 ∧
      ∃ a b, read? (text 1048575) = some a ∧ read? (text 1048576) = some b ∧ a.bytes ≤ b.bytes) ∧
    (1048575 < 2 ^ 53 ∧ ∃ a, read? (text 1048575) = some a ∧
      |a.bytes - (1048575 : Nat)| ≤ a.unit / 20 ∧ (1048575 < 1024 → a.bytes = (1048575 : Nat))) ∧
    (1024 ≤ 2 ^ 63 + 1 ∧ ∃ k t : Nat, ∃ x, ∃ unit : Unit,
      Nearest ((2 ^ 63 + 1 : Nat) / step (2 ^ 63 + 1)) k ∧
        divided ((k * step (2 ^ 63 + 1) : Nat) / Unit.kib.bytes) .kib [.mib, .gib, .tib] = (x, unit) ∧
          Nearest (10 * x) t ∧ read? (text (2 ^ 63 + 1)) = some ⟨t / 10, unit.bytes⟩) := by
  obtain ⟨hmono, haccurate, hnearest⟩ := shown_mono_accurate
  exact ⟨⟨by decide, hmono 1048575 1048576 (by decide)⟩, ⟨by decide, haccurate 1048575 (by decide)⟩,
    by decide, hnearest (2 ^ 63 + 1) (by decide)⟩

end ByteScan.Size
