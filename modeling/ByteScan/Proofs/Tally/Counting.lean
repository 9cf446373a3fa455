import ByteScan.Tally
import Mathlib.Algebra.BigOperators.Ring.Finset

/-!
# What a tally holds after counting

Counting a key changes the count of this key only, and a new key goes behind the others. So a tally
that counts some keys one after another holds each key at the place of its first appearance, with the
number of its appearances added to its count, up to the greatest number that a count can hold.

* `Tally.keys`: the keys of a tally, in order.

Results:
1. `eraseDups_concat`, `nodup_eraseDups`, `sum_count_eraseDups`: first appearances in a list.
2. `keys_increment`, `get?_increment`: counting one key.
3. `keys_foldl_increment`, `get?_foldl_increment`: counting many keys.
4. `entries_eq_map`, `entries_foldl_increment`: the entries of a tally.
-/

namespace ByteScan

/-! ## 1. First appearances -/

section FirstAppearances

variable {κ : Type} [DecidableEq κ] (keys : List κ) (key : κ)

theorem eraseDups_concat : (keys ++ [key]).eraseDups =
    if key ∈ keys.eraseDups then keys.eraseDups else keys.eraseDups ++ [key] := by
  rw [List.eraseDups_append, List.cons_removeAll, List.nil_removeAll]
  by_cases h : key ∈ keys
  · rw [if_pos (List.mem_eraseDups.mpr h), if_neg (by simpa using h)]
    exact List.append_nil _
  · rw [if_neg (mt List.mem_eraseDups.mp h), if_pos (by simpa using h)]
    rfl

theorem nodup_eraseDups : keys.eraseDups.Nodup := by
  induction keys using List.reverseRecOn with
  | nil => exact List.nodup_nil
  | append_singleton keys key ih =>
    rw [eraseDups_concat]
    split
    · exact ih
    · next h =>
      rw [← List.concat_eq_append, List.nodup_concat]
      exact ⟨h, ih⟩

theorem eraseDups_of_nodup (h : keys.Nodup) : keys.eraseDups = keys := by
  induction keys using List.reverseRecOn with
  | nil => rfl
  | append_singleton keys key ih =>
    obtain ⟨hkeys, -, hne⟩ := List.nodup_append.mp h
    have hkey : key ∉ keys := fun hmem => hne key hmem key (List.mem_singleton_self key) rfl
    rw [eraseDups_concat, ih hkeys, if_neg hkey]

/-- A key that appears many times in a row appears first where it appears once. -/
theorem eraseDups_append_replicate (n : Nat) :
    (keys ++ List.replicate (n + 1) key).eraseDups = (keys ++ [key]).eraseDups := by
  induction n with
  | zero => rfl
  | succ n ih =>
    have hmem : key ∈ keys ++ List.replicate (n + 1) key := by simp
    rw [List.replicate_succ', ← List.append_assoc, eraseDups_concat,
      if_pos (List.mem_eraseDups.mpr hmem), ih]

/-- Each appearance is counted once, with the key that it is an appearance of. -/
theorem sum_count_eraseDups : (keys.eraseDups.map keys.count).sum = keys.length := by
  have hperm : keys.eraseDups.Perm keys.dedup := by
    rw [List.perm_ext_iff_of_nodup (nodup_eraseDups keys) keys.nodup_dedup]
    exact fun key => List.mem_eraseDups.trans List.mem_dedup.symm
  rw [(hperm.map keys.count).sum_eq]
  exact List.sum_map_count_dedup_eq_length keys

end FirstAppearances

namespace Tally

variable {κ : Type}

/-- The keys, in order. -/
def keys (t : Tally κ) : List κ :=
  t.entries.map Prod.fst

variable [DecidableEq κ]

/-! ## 2. One key -/

section Increment

variable (key : κ) (f : Option Int → Int) (entries : List (κ × Int))

theorem lookup_cons_eq_ite (other : κ) (count : Int) :
    ((key, count) :: entries).lookup other =
      if other = key then some count else entries.lookup other := by
  rw [List.lookup_cons]
  by_cases h : other = key
  · rw [if_pos h, h, beq_self_eq_true]
  · rw [if_neg h, beq_false_of_ne h]

theorem map_fst_alterEntries : (alterEntries key f entries).map Prod.fst =
    if key ∈ entries.map Prod.fst then entries.map Prod.fst
    else entries.map Prod.fst ++ [key] := by
  induction entries with
  | nil => rfl
  | cons e entries ih =>
    obtain ⟨k, count⟩ := e
    rw [alterEntries, List.map_cons]
    by_cases hk : k = key
    · rw [if_pos hk, if_pos (hk ▸ List.mem_cons_self), List.map_cons]
    · have hmem : key ∈ k :: entries.map Prod.fst ↔ key ∈ entries.map Prod.fst := by
        simp [Ne.symm hk]
      rw [if_neg hk, List.map_cons, ih]
      simp only [hmem]
      split <;> rfl

theorem lookup_alterEntries (other : κ) : (alterEntries key f entries).lookup other =
    if other = key then some (f (entries.lookup key)) else entries.lookup other := by
  induction entries with
  | nil => exact lookup_cons_eq_ite key [] other (f none)
  | cons e entries ih =>
    obtain ⟨k, count⟩ := e
    rw [alterEntries, lookup_cons_eq_ite k, lookup_cons_eq_ite k]
    by_cases hk : k = key
    · rw [if_pos hk, if_pos hk.symm, lookup_cons_eq_ite, hk]
      split <;> rfl
    · rw [if_neg hk, if_neg (Ne.symm hk), lookup_cons_eq_ite, ih]
      by_cases hother : other = k
      · rw [if_pos hother, if_neg (hother ▸ hk), if_pos hother]
      · rw [if_neg hother, if_neg hother]

/-- Only the count that is found is looked at. -/
theorem alterEntries_eq : alterEntries key f entries =
    alterEntries key (fun _ => f (entries.lookup key)) entries := by
  induction entries with
  | nil => rfl
  | cons e entries ih =>
    obtain ⟨k, count⟩ := e
    rw [alterEntries, alterEntries, lookup_cons_eq_ite]
    by_cases hk : k = key
    · rw [if_pos hk, if_pos hk, if_pos hk.symm]
    · rw [if_neg hk, if_neg hk, if_neg (Ne.symm hk), ih]

variable {key f entries} in
/-- What holds of the counts holds of them afterwards, if it holds of the count of a new key and
comes along with each count. -/
theorem forall_mem_alterEntries {P : Int → Prop} (hnew : P (f none))
    (hstep : ∀ n, P n → P (f (some n))) (h : ∀ e ∈ entries, P e.2) :
    ∀ e ∈ alterEntries key f entries, P e.2 := by
  induction entries with
  | nil => exact List.forall_mem_singleton.mpr hnew
  | cons e entries ih =>
    obtain ⟨k, count⟩ := e
    obtain ⟨hcount, hentries⟩ := List.forall_mem_cons.mp h
    rw [alterEntries]
    split
    · exact List.forall_mem_cons.mpr ⟨hstep count hcount, hentries⟩
    · exact List.forall_mem_cons.mpr ⟨hcount, ih hentries⟩

variable (type : CountType) (t : Tally κ)

theorem keys_increment :
    (t.increment type key).keys = if key ∈ t.keys then t.keys else t.keys ++ [key] :=
  map_fst_alterEntries key _ t.entries

theorem get?_increment (other : κ) : (t.increment type key).get? other =
    if other = key then some (type.next (t.get? key)) else t.get? other :=
  lookup_alterEntries key type.next t.entries other

end Increment

/-! ## 3. Many keys -/

section Run

variable (type : CountType)

/-- Keys are kept in the order of their first appearance. -/
theorem keys_foldl_increment {t : Tally κ} (h : t.keys.Nodup) (names : List κ) :
    (names.foldl (increment type) t).keys = (t.keys ++ names).eraseDups := by
  induction names using List.reverseRecOn with
  | nil => rw [List.append_nil, eraseDups_of_nodup t.keys h, List.foldl_nil]
  | append_singleton names name ih =>
    rw [List.foldl_concat, keys_increment, ih, ← List.append_assoc, eraseDups_concat]

/-- A key's count grows by the number of its appearances, up to the greatest number. -/
theorem get?_foldl_increment (h : 1 ≤ type.max) (t : Tally κ) (names : List κ)
    (key : κ) : (names.foldl (increment type) t).get? key =
      if key ∈ names then some (min ((t.get? key).getD 0 + names.count key) type.max)
      else t.get? key := by
  -- The induction is on the last key, since only its own count changes with it.
  induction names using List.reverseRecOn with
  | nil => rfl
  | append_singleton names name ih =>
    rw [List.foldl_concat, get?_increment, List.count_append]
    by_cases hkey : key = name
    · subst hkey
      rw [if_pos rfl, if_pos (by simp), List.count_singleton_self, ih]
      by_cases hmem : key ∈ names
      · rw [if_pos hmem, CountType.next, CountType.increase]
        congr 1
        omega
      · rw [if_neg hmem, List.count_eq_zero.mpr hmem]
        congr 1
        cases t.get? key with
        | none => exact (Int.min_eq_left h).symm
        | some count => rfl
    · have hmem : key ∈ names ++ [name] ↔ key ∈ names := by simp [hkey]
      have hcount : [name].count key = 0 := List.count_eq_zero.mpr (by simpa using hkey)
      rw [if_neg hkey, ih, hcount, Nat.add_zero]
      simp only [hmem]

end Run

/-! ## 4. Entries -/

theorem lookup_of_mem {entries : List (κ × Int)} (h : (entries.map Prod.fst).Nodup)
    {e : κ × Int} (he : e ∈ entries) : entries.lookup e.1 = some e.2 := by
  induction entries with
  | nil => cases he
  | cons first entries ih =>
    obtain ⟨hfirst, hnodup⟩ := List.nodup_cons.mp h
    rw [lookup_cons_eq_ite]
    cases he with
    | head => rw [if_pos rfl]
    | tail _ hmem =>
      have hne : e.1 ≠ first.1 := fun heq => hfirst (heq ▸ List.mem_map_of_mem hmem)
      rw [if_neg hne, ih hnodup hmem]

theorem entries_eq_map {t : Tally κ} (h : t.keys.Nodup) :
    t.entries = t.keys.map fun key => (key, (t.get? key).getD 0) := by
  have hsame : ∀ e ∈ t.entries, (e.1, (t.get? e.1).getD 0) = e := by
    intro e he
    rw [get?, lookup_of_mem h he, Option.getD_some]
  rw [keys, List.map_map]
  exact ((List.map_congr_left hsame).trans (List.map_id _)).symm

/-- A tally of some keys has an entry for each of them, in the order of their first appearance, with
the number of its appearances. -/
theorem entries_foldl_increment {type : CountType} (h : 1 ≤ type.max) (names : List κ) :
    (names.foldl (increment type) {}).entries =
      names.eraseDups.map fun name => (name, min (names.count name : Int) type.max) := by
  have hempty : keys ({} : Tally κ) = [] := rfl
  have hkeys : (names.foldl (increment type) {}).keys = names.eraseDups := by
    rw [keys_foldl_increment type (hempty ▸ List.nodup_nil), hempty, List.nil_append]
  rw [entries_eq_map (hkeys ▸ nodup_eraseDups names), hkeys]
  refine List.map_congr_left fun name hname => ?_
  rw [get?_foldl_increment type h, if_pos (List.mem_eraseDups.mp hname), Option.getD_some]
  show (name, min (0 + _) _) = _
  rw [Int.zero_add]

end Tally

end ByteScan
