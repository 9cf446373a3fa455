import ByteScan.Proofs.Tally.Counting
import Std.Data.HashMap.Lemmas

/-!
# Both tallies count alike

A tally that keeps the order of its keys and one that keeps none can begin with the same counts. Then
they go on with the same counts, whatever keys are counted and in whatever order, and each of them
returns the count that it stores. A count that has reached the greatest number of its kind stays there,
and one that begins below zero passes zero like any other number.

* `CountType.Holds`: the numbers of a kind.
* `Tally.OfType`: a tally with each key once, and with counts of one kind.
* `Tally.Alike`: two tallies with the same counts.

Results:
1. `Tally.count_eq`, `HashTally.count_eq`: what is returned for a key.
2. `Tally.OfType.increment`, `Tally.Alike.increment`: one key. `Tally.OfType.foldl`,
   `Tally.Alike.foldl`: many keys.
3. `Tally.alike_foldl_insert`: tallies that are filled in the same way.
4. `Tally.counting_exact`: the counts after each of many keys.
-/

namespace ByteScan

/-! ## Definitions -/

namespace CountType

/-- The least number of the kind. -/
def least (t : CountType) : Int :=
  if t.signed then -Int.pow 2 (t.bits - 1) else 0

/-- Whether a number is of the kind. -/
def Holds (t : CountType) (n : Int) : Prop :=
  t.least ≤ n ∧ n ≤ t.max

instance (t : CountType) : DecidablePred t.Holds :=
  fun n => inferInstanceAs (Decidable (t.least ≤ n ∧ n ≤ t.max))

theorem Holds.increase {t : CountType} {n : Int} (h : t.Holds n) : t.Holds (t.increase n) := by
  obtain ⟨hleast, hmax⟩ := h
  rw [Holds, CountType.increase]
  omega

/-- One is a number of every kind that has two bits, whether one of them is a sign or not. -/
theorem holds_one {t : CountType} (h : 2 ≤ t.bits) : t.Holds 1 := by
  have hpow : ∀ k ≠ 0, (2 : Int) ≤ 2 ^ k := fun k hk => mod_cast Nat.le_self_pow hk 2
  have hsigned : (2 : Int) ≤ Int.pow 2 (t.bits - 1) := hpow _ (by omega)
  have hunsigned : (2 : Int) ≤ Int.pow 2 t.bits := hpow _ (by omega)
  rw [Holds, least, max]
  split <;> omega

end CountType

variable {κ : Type} [DecidableEq κ]

namespace Tally

/-- Each key is there once, and the counts are numbers of the kind. -/
structure OfType (type : CountType) (t : Tally κ) : Prop where
  nodup : t.keys.Nodup
  holds : ∀ e ∈ t.entries, type.Holds e.2

/-- The two tallies have the same keys, with the same counts. -/
def Alike [Hashable κ] (t : Tally κ) (h : HashTally κ) : Prop :=
  ∀ key, h.get? key = t.get? key

end Tally

/-! ## 1. What is returned -/

section Returned

variable (type : CountType) (key : κ)

theorem Tally.increment_eq (t : Tally κ) :
    t.increment type key = t.insert key (type.next (t.get? key)) :=
  congrArg mk (alterEntries_eq key type.next t.entries)

theorem Tally.count_eq (t : Tally κ) :
    t.count type key = (type.next (t.get? key), t.increment type key) := by
  rw [increment_eq, count]

theorem HashTally.count_eq [Hashable κ] (h : HashTally κ) :
    h.count type key = (type.next (h.get? key), h.increment type key) :=
  rfl

end Returned

/-! ## 2. Keys that are counted -/

section Counting

variable {type : CountType} {t : Tally κ} (key : κ) (names : List κ)

theorem Tally.OfType.increment (hone : type.Holds 1) (ht : t.OfType type) :
    (t.increment type key).OfType type where
  nodup := by
    rw [keys_increment]
    split
    · exact ht.nodup
    · next hnew =>
      rw [← List.concat_eq_append, List.nodup_concat]
      exact ⟨hnew, ht.nodup⟩
  holds := forall_mem_alterEntries hone (fun _ => CountType.Holds.increase) ht.holds

theorem Tally.OfType.foldl (hone : type.Holds 1) (ht : t.OfType type) :
    (names.foldl (Tally.increment type) t).OfType type := by
  induction names generalizing t with
  | nil => exact ht
  | cons name names ih => exact ih (ht.increment name hone)

variable [Hashable κ] {h : HashTally κ}

theorem HashTally.get?_insert (h : HashTally κ) (n : Int) (other : κ) :
    (h.insert key n).get? other = if other = key then some n else h.get? other := by
  rw [get?, insert, Std.HashMap.getElem?_insert, get?]
  simp only [beq_iff_eq, @eq_comm κ key]

/-- Counting a key in both tallies keeps their counts the same. -/
theorem Tally.Alike.increment (halike : t.Alike h) :
    (t.increment type key).Alike (h.increment type key) := by
  intro other
  rw [HashTally.increment, HashTally.get?_insert, Tally.get?_increment, halike, halike]

theorem Tally.Alike.foldl (halike : t.Alike h) :
    (names.foldl (Tally.increment type) t).Alike (names.foldl (HashTally.increment type) h) := by
  induction names generalizing t h with
  | nil => exact halike
  | cons name names ih => exact ih (halike.increment name)

end Counting

/-! ## 3. Tallies that are filled in the same way -/

section Filling

variable [Hashable κ] {t : Tally κ} {h : HashTally κ}

theorem Tally.Alike.insert (halike : t.Alike h) (key : κ) (n : Int) :
    (t.insert key n).Alike (h.insert key n) := by
  intro other
  rw [HashTally.get?_insert, halike]
  exact (lookup_alterEntries key (fun _ => n) t.entries other).symm

/-- Setting the same counts one after another gives tallies with the same counts. -/
theorem Tally.alike_foldl_insert (entries : List (κ × Int)) (halike : t.Alike h) :
    (entries.foldl (fun t (key, n) => t.insert key n) t).Alike
      (entries.foldl (fun h (key, n) => h.insert key n) h) := by
  induction entries generalizing t h with
  | nil => exact halike
  | cons e entries ih => exact ih (halike.insert e.1 e.2)

theorem Tally.alike_empty : ({} : Tally κ).Alike ({} : HashTally κ) :=
  fun _ => Std.HashMap.getElem?_empty

end Filling

/-! ## 4. The counts after each key -/

namespace Tally

variable {type : CountType} {t : Tally κ}

/-- The keys that were there stay where they are, and the new ones come behind them. -/
theorem keys_foldl_increment_eq_append (ht : t.keys.Nodup) (names : List κ) :
    (names.foldl (Tally.increment type) t).keys =
      t.keys ++ (names.filter (· ∉ t.keys)).eraseDups := by
  rw [keys_foldl_increment type ht, List.eraseDups_append, eraseDups_of_nodup t.keys ht]
  congr 2
  exact List.filter_congr fun key _ => by simp

/-- What the next count of a key is after some keys were counted. -/
theorem next_foldl_increment (hone : type.Holds 1) (names : List κ) (key : κ) :
    type.next ((names.foldl (Tally.increment type) t).get? key) =
      min ((t.get? key).getD 0 + (names ++ [key]).count key) type.max := by
  have hstored := get?_foldl_increment type hone.2 t (names ++ [key]) key
  rw [if_pos (by simp), List.foldl_concat, get?_increment, if_pos rfl] at hstored
  exact Option.some.inj hstored

/-- Counting some keys in both tallies, one after another. Each time the tallies return and store the
same count: the count that the key had at first, which is zero if it had none, and one for each time
that it has been counted, up to the greatest number. No other count changes. The keys that were there
at first keep their order, and new keys come behind them in the order in which they are first counted.
No count is ever out of its kind, and the order in which the keys are counted makes no difference to
the counts that the tallies have at the end. -/
theorem counting_exact [Hashable κ] {h : HashTally κ} (hone : type.Holds 1)
    (ht : t.OfType type) (halike : t.Alike h) (names : List κ) :
    let ordered (i : Nat) := (names.take i).foldl (Tally.increment type) t
    let hashed (i : Nat) := (names.take i).foldl (HashTally.increment type) h
    (∀ i (hi : i < names.length),
      let key := names[i]
      let n := min ((t.get? key).getD 0 + (names.take (i + 1)).count key) type.max
      (ordered i).count type key = (n, ordered (i + 1)) ∧
        (hashed i).count type key = (n, hashed (i + 1)) ∧
        (ordered (i + 1)).get? key = some n ∧ (hashed (i + 1)).get? key = some n ∧
        ∀ other ≠ key, (ordered (i + 1)).get? other = (ordered i).get? other ∧
          (hashed (i + 1)).get? other = (hashed i).get? other) ∧
      (∀ i, (ordered i).Alike (hashed i) ∧ (ordered i).OfType type ∧
        (ordered i).keys = t.keys ++ ((names.take i).filter (· ∉ t.keys)).eraseDups) ∧
      ∀ shuffled : List κ, shuffled.Perm names → ∀ key,
        (shuffled.foldl (Tally.increment type) t).get? key =
            (names.foldl (Tally.increment type) t).get? key ∧
          (shuffled.foldl (HashTally.increment type) h).get? key =
            (names.foldl (HashTally.increment type) h).get? key := by
  intro ordered hashed
  have hsame : ∀ i, (ordered i).Alike (hashed i) := fun i => halike.foldl (names.take i)
  refine ⟨?_, fun i => ⟨hsame i, ht.foldl _ hone, keys_foldl_increment_eq_append ht.nodup _⟩, ?_⟩
  · intro i hi key n
    have htake : names.take (i + 1) = names.take i ++ [key] := List.take_succ_eq_append_getElem hi
    have hordered : ordered (i + 1) = (ordered i).increment type key :=
      (congrArg (List.foldl _ t) htake).trans (List.foldl_concat ..)
    have hhashed : hashed (i + 1) = (hashed i).increment type key :=
      (congrArg (List.foldl _ h) htake).trans (List.foldl_concat ..)
    have hnext : type.next ((ordered i).get? key) = n := by
      rw [next_foldl_increment hone, ← htake]
    have hstored : (ordered (i + 1)).get? key = some n := by
      rw [hordered, get?_increment, if_pos rfl, hnext]
    refine ⟨?_, ?_, hstored, (hsame (i + 1) key).trans hstored, fun other hother => ⟨?_, ?_⟩⟩
    · rw [count_eq, hnext, hordered]
    · rw [HashTally.count_eq, hsame, hnext, hhashed]
    · rw [hordered, get?_increment, if_neg hother]
    · rw [hhashed, HashTally.increment, HashTally.get?_insert, if_neg hother]
  · -- A count at the end depends on how often its key was counted, and on nothing else.
    intro shuffled hperm key
    have hget : (shuffled.foldl (Tally.increment type) t).get? key =
        (names.foldl (Tally.increment type) t).get? key := by
      rw [get?_foldl_increment type hone.2, get?_foldl_increment type hone.2, hperm.count_eq]
      simp only [hperm.mem_iff]
    exact ⟨hget, by rw [halike.foldl, halike.foldl, hget]⟩

/-- Numbers of eight bits with a sign. The key `full` stays at the greatest number, and `low` goes up
from the least one. -/
theorem counting_full_low_new :
    let type : CountType := ⟨8, true⟩
    let initial := [("full", 127), ("low", -128)]
    let t : Tally := initial.foldl (fun t (key, n) => t.insert key n) {}
    let h : HashTally := initial.foldl (fun h (key, n) => h.insert key n) {}
    let names := ["new", "full", "low", "new"]
    let after := names.foldl (Tally.increment type) t
    type.Holds 1 ∧ t.OfType type ∧ t.Alike h ∧ ["low", "new", "new", "full"].Perm names ∧
      (((names.take 3).foldl (HashTally.increment type) h).count type "new").1 = 2 ∧
      after.keys = ["full", "low", "new"] ∧
      (["low", "new", "new", "full"].foldl (HashTally.increment type) h).get? "full" =
        (names.foldl (HashTally.increment type) h).get? "full" := by
  intro type initial t h names after
  have hone : type.Holds 1 := CountType.holds_one (by decide)
  have ht : t.OfType type := ⟨by decide, by decide⟩
  have halike : t.Alike h := alike_foldl_insert initial alike_empty
  have hperm : ["low", "new", "new", "full"].Perm names := by decide
  obtain ⟨hsteps, hstates, hpermuted⟩ := counting_exact hone ht halike names
  refine ⟨hone, ht, halike, hperm, ?_, (hstates 4).2.2, (hpermuted _ hperm "full").2⟩
  exact congrArg Prod.fst (hsteps 3 (by decide)).2.1

end Tally

end ByteScan
