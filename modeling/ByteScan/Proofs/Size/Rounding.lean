import ByteScan.Size
import Mathlib.Algebra.Order.Field.Basic
import Mathlib.Algebra.Order.Field.Rat
import Mathlib.Data.Rat.Cast.Order
import Mathlib.Tactic.FieldSimp
import Mathlib.Tactic.Linarith

/-!
# Rounding to the nearest number

A quotient is rounded to the whole number that is nearest to it, and of two that are as near to the
even one. Which number that is, is settled by this rule, and it never gets smaller when the quotient
gets greater. The same holds of sizes that are cut to 53 significant bits, although it depends on the
size which numbers have so many bits.

* `Nearest`: the rule.
* `Size.step`: the distance between two numbers with 53 significant bits that are as long as a size.

Results:
1. `nearest_roundDiv`, `Nearest.mono`, `Nearest.unique`: the rule, and what it settles.
2. `Size.significant_of_lt`, `Size.nearest_significant`: the size that is kept.
3. `Size.significant_mono`: greater sizes.
-/

namespace ByteScan

/-! ## 1. The rule -/

/-- The whole number is nearest to the quotient, and it is even if another one is as near. -/
structure Nearest (x : ℚ) (k : Nat) : Prop where
  low : k - 1 / 2 ≤ x
  high : x ≤ k + 1 / 2
  even : x = k - 1 / 2 ∨ x = k + 1 / 2 → k % 2 = 0

section Nearest

variable {x y : ℚ} {k l : Nat}

/-- Between the halves on both sides there is only one whole number. -/
theorem nearest_of_lt (hlow : k - 1 / 2 < x) (hhigh : x < k + 1 / 2) : Nearest x k where
  low := hlow.le
  high := hhigh.le
  even := by
    rintro (h | h)
    · exact absurd h hlow.ne'
    · exact absurd h hhigh.ne

theorem nearest_natCast (k : Nat) : Nearest k k :=
  nearest_of_lt (by linarith) (by linarith)

/-- The distances alone leave one case open, in which two neighbours would both be even. -/
theorem Nearest.mono (hx : Nearest x k) (hy : Nearest y l) (h : x ≤ y) : k ≤ l := by
  by_contra hlt
  have hsucc : (l : ℚ) + 1 ≤ k := by exact_mod_cast Nat.lt_of_not_le hlt
  have hlow := hx.low
  have hhigh := hy.high
  have hkl : k = l + 1 := by
    have hcast : (k : ℚ) = l + 1 := by linarith
    exact_mod_cast hcast
  have hk : k % 2 = 0 := hx.even (.inl (by linarith))
  have hl : l % 2 = 0 := hy.even (.inr (by linarith))
  omega

theorem Nearest.unique (hk : Nearest x k) (hl : Nearest x l) : k = l :=
  Nat.le_antisymm (hk.mono hl le_rfl) (hl.mono hk le_rfl)

/-- The distance is at most one half. -/
theorem Nearest.abs_sub_le (h : Nearest x k) : |(k : ℚ) - x| ≤ 1 / 2 := by
  have hlow := h.low
  have hhigh := h.high
  exact abs_le.mpr ⟨by linarith, by linarith⟩

end Nearest

/-- Rounding a quotient gives the number that is nearest to it. -/
theorem nearest_roundDiv (num : Nat) {den : Nat} (hden : 0 < den) :
    Nearest (num / den) (roundDiv num den) := by
  have hpos : (0 : ℚ) < den := by exact_mod_cast hden
  obtain ⟨q, r, hr, hnum, hround⟩ : ∃ q r, r < den ∧ num = den * q + r ∧ roundDiv num den =
      if 2 * r < den then q else if 2 * r > den then q + 1 else q + q % 2 :=
    ⟨num / den, num % den, Nat.mod_lt num hden, (Nat.div_add_mod num den).symm, rfl⟩
  have hquotient : (num / den : ℚ) = q + r / den := by
    rw [hnum]
    push_cast
    field_simp
  have hrest : (r / den : ℚ) < 1 := (div_lt_one hpos).mpr (by exact_mod_cast hr)
  have hrest' : (0 : ℚ) ≤ r / den := div_nonneg (by exact_mod_cast r.zero_le) hpos.le
  -- The quotient is `q` and a rest below one, and the rest is compared with a half.
  rw [hround, hquotient]
  split_ifs with hless hmore
  · have hhalf : (r / den : ℚ) < 1 / 2 := by
      have hcast : (2 * r : ℚ) < den := by exact_mod_cast hless
      rw [div_lt_iff₀ hpos]
      linarith
    exact nearest_of_lt (by linarith) (by linarith)
  · have hhalf : (1 / 2 : ℚ) < r / den := by
      have hcast : (den : ℚ) < 2 * r := by exact_mod_cast hmore
      rw [lt_div_iff₀ hpos]
      linarith
    have hsucc : ((q + 1 : Nat) : ℚ) = q + 1 := Nat.cast_succ q
    exact nearest_of_lt (by linarith) (by linarith)
  · have hhalf : (r / den : ℚ) = 1 / 2 := by
      have hcast : (2 * r : ℚ) = den := by
        exact_mod_cast Nat.le_antisymm (Nat.le_of_not_lt hmore) (Nat.le_of_not_lt hless)
      rw [div_eq_iff hpos.ne']
      linarith
    -- Halfway between two numbers the even one is taken.
    rcases Nat.mod_two_eq_zero_or_one q with heven | hodd
    · rw [heven, hhalf, Nat.add_zero]
      exact ⟨by linarith, le_rfl, fun _ => heven⟩
    · have hsucc : ((q + 1 : Nat) : ℚ) = q + 1 := Nat.cast_succ q
      rw [hodd, hhalf]
      exact ⟨by linarith, by linarith, fun _ => by omega⟩

theorem roundDiv_mono {a b den : Nat} (hden : 0 < den) (h : a ≤ b) :
    roundDiv a den ≤ roundDiv b den := by
  have hpos : (0 : ℚ) < den := by exact_mod_cast hden
  have hquotient : (a / den : ℚ) ≤ b / den :=
    div_le_div_of_nonneg_right (by exact_mod_cast h) hpos.le
  exact (nearest_roundDiv a hden).mono (nearest_roundDiv b hden) hquotient

/-- A quotient without a rest is not rounded. -/
theorem roundDiv_mul_left (k : Nat) {den : Nat} (hden : 0 < den) : roundDiv (k * den) den = k := by
  rw [roundDiv, Nat.mul_mod_left, Nat.mul_div_cancel k hden]
  exact if_pos hden

namespace Size

/-! ## 2. The size that is kept -/

/-- The distance between two numbers with 53 significant bits that are as long as the size. -/
def step (n : Nat) : Nat :=
  2 ^ (n.log2 + 1 - precision)

theorem significant_eq (n : Nat) : significant n = roundDiv n (step n) * step n :=
  rfl

theorem step_pos (n : Nat) : 0 < step n :=
  Nat.two_pow_pos _

/-- A size of at most 53 bits is kept as it is. -/
theorem significant_of_lt {n : Nat} (h : n < 2 ^ 53) : significant n = n := by
  have hlog : n.log2 + 1 ≤ precision := by
    rcases Nat.eq_zero_or_pos n with rfl | hpos
    · decide
    · exact (Nat.log2_lt hpos.ne').mpr h
  have hstep : step n = 1 := by rw [step, Nat.sub_eq_zero_of_le hlog, Nat.pow_zero]
  have hround : roundDiv (n * 1) 1 = n := roundDiv_mul_left n Nat.one_pos
  rw [Nat.mul_one] at hround
  rw [significant_eq, hstep, hround, Nat.mul_one]

/-- What is kept is the multiple of the step that is nearest to the size. -/
theorem nearest_significant (n : Nat) :
    ∃ k, significant n = k * step n ∧ Nearest (n / step n) k :=
  ⟨_, significant_eq n, nearest_roundDiv n (step_pos n)⟩

/-! ## 3. Greater sizes -/

section Bounds

variable {n k i : Nat}

theorem mul_step_le_significant (h : k * step n ≤ n) : k * step n ≤ significant n := by
  have hround := roundDiv_mono (step_pos n) h
  rw [roundDiv_mul_left k (step_pos n)] at hround
  exact Nat.mul_le_mul_right (step n) hround

theorem significant_le_mul_step (h : n ≤ k * step n) : significant n ≤ k * step n := by
  have hround := roundDiv_mono (step_pos n) h
  rw [roundDiv_mul_left k (step_pos n)] at hround
  exact Nat.mul_le_mul_right (step n) hround

/-- A power of two that is about as long as the size has few enough significant bits. -/
theorem exists_two_pow_eq (h : n.log2 + 1 - precision ≤ i) : ∃ k, 2 ^ i = k * step n :=
  ⟨2 ^ (i - (n.log2 + 1 - precision)), by rw [step, ← Nat.pow_add, Nat.sub_add_cancel h]⟩

end Bounds

/-- What is kept of a greater size is not smaller. Sizes of the same length are rounded to the same
multiples, and between those of different lengths there is a power of two. -/
theorem significant_mono {a b : Nat} (h : a ≤ b) : significant a ≤ significant b := by
  rcases Nat.eq_zero_or_pos a with rfl | hapos
  · exact Nat.zero_le _
  have hbpos : b ≠ 0 := (Nat.lt_of_lt_of_le hapos h).ne'
  rcases Nat.lt_or_ge a.log2 b.log2 with hlt | hge
  · have hhigh : significant a ≤ 2 ^ b.log2 := by
      obtain ⟨k, hk⟩ : ∃ k, 2 ^ b.log2 = k * step a := exists_two_pow_eq (by omega)
      rw [hk]
      exact significant_le_mul_step (hk ▸ ((Nat.log2_lt hapos.ne').mp hlt).le)
    have hlow : 2 ^ b.log2 ≤ significant b := by
      obtain ⟨k, hk⟩ : ∃ k, 2 ^ b.log2 = k * step b := exists_two_pow_eq (by rw [precision]; omega)
      rw [hk]
      exact mul_step_le_significant (hk ▸ Nat.log2_self_le hbpos)
    exact hhigh.trans hlow
  · have hlog : a.log2 = b.log2 :=
      Nat.le_antisymm ((Nat.le_log2 hbpos).mpr ((Nat.log2_self_le hapos.ne').trans h)) hge
    have hstep : step a = step b := by rw [step, hlog, step]
    rw [significant_eq, significant_eq, hstep]
    exact Nat.mul_le_mul_right _ (roundDiv_mono (step_pos b) h)

end Size

end ByteScan
