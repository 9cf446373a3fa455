import ByteScan.Database.Scan
import ByteScan.Proofs.Search.Series

/-!
# What a search for a database gives

Entries without a match are left out of the answer, so an entry has to be named by its place in the
database and not by its place in the answer. Here it is shown that the places are right whatever is
left out, and that a search for two databases in one is a search for the first and then for the
second, with places that are moved by the number of entries of the first.

* `Database.EntryHits.moved`: hits in a database with more entries in front.
* `Database.Answers`: an answer that names the entries by their places.

Results:
1. `Scanner.mapWith_eq`, `Scanner.hits_eq`: searching at the same time changes nothing.
2. `Scanner.mem_hits`, `Scanner.answers_hits`: what stands in an answer.
3. `Signature.positions_eq_nil_iff`, `Scanner.absent_iff`: what is left out.
4. `Scanner.hits_append`: two databases in one. `Scanner.hits_of_two` states all of this for first
   matches and for all matches.
-/

namespace ByteScan

namespace Database

/-- The same hits in a database with `n` more entries in front. -/
def EntryHits.moved (n : Nat) (h : EntryHits) : EntryHits :=
  { h with index := h.index + n }

/-- The hits are an answer to a search for a database: they come in the order of the entries, and
each of them has the place of an entry, its name and its positions, of which there is one at
least. -/
structure Answers (d : Database) (extent : Extent) (region : List UInt8)
    (hits : List EntryHits) : Prop where
  ascending : hits.Pairwise fun h h' => h.index < h'.index
  entry : ∀ h ∈ hits, ∃ e, d.entries[h.index]? = some e ∧ h.name = e.name ∧
    h.positions = e.signature.positions extent region ∧ h.positions ≠ []

/-! ## 1. One entry after another -/

theorem Entry.hits?_eq_some {extent : Extent} {region : List UInt8} {index : Nat} {e : Entry}
    {h : EntryHits} : e.hits? extent region index = some h ↔
      h = ⟨index, e.name, e.signature.positions extent region⟩ ∧ h.positions ≠ [] := by
  rw [hits?]
  cases hpositions : e.signature.positions extent region with
  | nil => simp +contextual
  | cons p positions =>
    simp only [Option.some.injEq]
    exact ⟨fun heq => heq ▸ ⟨rfl, List.cons_ne_nil p positions⟩, fun heq => heq.1.symm⟩

theorem Entry.hits?_moved (extent : Extent) (region : List UInt8) (index n : Nat) (e : Entry) :
    e.hits? extent region (index + n) = (e.hits? extent region index).map (EntryHits.moved n) := by
  rw [hits?, hits?]
  cases e.signature.positions extent region <;> rfl

end Database

namespace Scanner

open Database (EntryHits)

section Hits

variable (s : Scanner) (extent : Extent) (region : List UInt8) (d : Database)

theorem mapWith_eq {α β : Type} (parallel : Bool) (f : α → β) (xs : List α) :
    mapWith parallel f xs = xs.map f := by
  cases parallel with
  | false => rfl
  | true =>
    show (xs.map fun x => Task.spawn fun _ => f x).map Task.get = xs.map f
    rw [List.map_map]
    rfl

theorem hits_eq : s.hits extent region d =
    d.entries.zipIdx.filterMap fun (e, index) => e.hits? extent region index := by
  rw [hits, mapWith_eq, List.filterMap_map]
  rfl

/-! ## 2. What stands in an answer -/

theorem mem_hits {h : EntryHits} : h ∈ s.hits extent region d ↔
    ∃ e, d.entries[h.index]? = some e ∧ h.name = e.name ∧
      h.positions = e.signature.positions extent region ∧ h.positions ≠ [] := by
  rw [hits_eq, List.mem_filterMap]
  constructor
  · rintro ⟨⟨e, index⟩, hmem, hhits⟩
    obtain ⟨rfl, hne⟩ := Database.Entry.hits?_eq_some.mp hhits
    exact ⟨e, List.mem_zipIdx_iff_getElem?.mp hmem, rfl, rfl, hne⟩
  · rintro ⟨e, he, hname, hpositions, hne⟩
    refine ⟨(e, h.index), List.mem_zipIdx_iff_getElem?.mpr he, ?_⟩
    refine Database.Entry.hits?_eq_some.mpr ⟨?_, hne⟩
    rw [← hname, ← hpositions]

theorem pairwise_hits : (s.hits extent region d).Pairwise fun h h' => h.index < h'.index := by
  have hplaces : d.entries.zipIdx.Pairwise fun x y => x.2 < y.2 := by
    rw [← List.pairwise_map, List.zipIdx_map_snd]
    exact List.pairwise_lt_range'
  rw [hits_eq]
  refine hplaces.filterMap _ fun x y hlt h hh h' hh' => ?_
  obtain ⟨rfl, -⟩ := Database.Entry.hits?_eq_some.mp hh
  obtain ⟨rfl, -⟩ := Database.Entry.hits?_eq_some.mp hh'
  exact hlt

theorem answers_hits : d.Answers extent region (s.hits extent region d) :=
  ⟨s.pairwise_hits extent region d, fun _ hmem => (s.mem_hits extent region d).mp hmem⟩

end Hits

end Scanner

/-! ## 3. What is left out -/

theorem Signature.positions_eq_nil_iff {s : Signature} {extent : Extent}
    (h : extent ≠ .every (some 0)) (region : List UInt8) :
    s.positions extent region = [] ↔ s.find? region = none := by
  rw [positions, List.map_eq_nil_iff, find?, Option.map_eq_none_iff]
  cases extent with
  | first => rw [starts, Option.toList_eq_nil_iff]
  | every limit =>
    rw [firstStart?_eq_head?, List.head?_eq_none_iff]
    cases limit with
    | none => rw [starts_every]
    | some limit =>
      have hlimit : limit.toNat ≠ 0 := by
        intro hzero
        obtain rfl : limit = 0 := UInt64.toNat_inj.mp hzero
        exact h rfl
      rw [starts, Cursor.take_fst, Cursor.remaining_start, List.take_eq_nil_iff]
      exact or_iff_right hlimit

namespace Scanner

/-- An entry has no place in the answer exactly if its signature is not found, as long as any match
at all is wanted. -/
theorem absent_iff (s : Scanner) {extent : Extent} (h : extent ≠ .every (some 0))
    (region : List UInt8) {d : Database} {index : Nat} {e : Database.Entry}
    (he : d.entries[index]? = some e) :
    (∀ hit ∈ s.hits extent region d, hit.index ≠ index) ↔ e.signature.find? region = none := by
  rw [← Signature.positions_eq_nil_iff h region]
  constructor
  · intro habsent
    refine Classical.byContradiction fun hne => ?_
    refine habsent ⟨index, e.name, e.signature.positions extent region⟩ ?_ rfl
    exact (s.mem_hits extent region d).mpr ⟨e, he, rfl, rfl, hne⟩
  · rintro hnil hit hmem rfl
    obtain ⟨e', he', -, hpositions, hne⟩ := (s.mem_hits extent region d).mp hmem
    obtain rfl : e = e' := Option.some.inj (he.symm.trans he')
    exact hne (hpositions.trans hnil)

/-! ## 4. Two databases in one -/

theorem hits_append (s : Scanner) (extent : Extent) (region : List UInt8) (d d' : Database) :
    s.hits extent region ⟨d.entries ++ d'.entries⟩ =
      s.hits extent region d ++
        (s.hits extent region d').map (Database.EntryHits.moved d.entries.length) := by
  rw [hits_eq, hits_eq, hits_eq, List.zipIdx_append, List.filterMap_append]
  congr 1
  rw [Nat.zero_add, List.zipIdx_eq_map_add, List.filterMap_map, List.map_filterMap]
  refine congrArg (List.filterMap · d'.entries.zipIdx) (funext fun x => ?_)
  show x.1.hits? extent region (d.entries.length + x.2) = _
  rw [Nat.add_comm, Database.Entry.hits?_moved]

/-- A search for two databases in one gives what a search for the first gives, and then what a search
for the second gives, with places moved by the number of entries of the first. This holds for first
matches and for all matches, up to any number of them, and whether or not entries are searched for
at the same time. Every answer names its entries by their places, and an entry is left out of it
exactly if its signature is not found. -/
theorem hits_of_two (s : Scanner) (region : List UInt8) (d d' : Database) :
    let both : Database := ⟨d.entries ++ d'.entries⟩
    let moved := Database.EntryHits.moved d.entries.length
    s.firstHits region both = s.firstHits region d ++ (s.firstHits region d').map moved ∧
      s.allHits region both = s.allHits region d ++ (s.allHits region d').map moved ∧
      d.Answers .first region (s.firstHits region d) ∧
      d.Answers (.every s.maxMatches) region (s.allHits region d) ∧
      ∀ index e, d.entries[index]? = some e →
        ((∀ hit ∈ s.firstHits region d, hit.index ≠ index) ↔
          e.signature.find? region = none) ∧
        (s.maxMatches ≠ some 0 →
          ((∀ hit ∈ s.allHits region d, hit.index ≠ index) ↔
            e.signature.find? region = none)) := by
  intro both moved
  refine ⟨s.hits_append .first region d d', s.hits_append (.every s.maxMatches) region d d',
    s.answers_hits .first region d, s.answers_hits (.every s.maxMatches) region d,
    fun index e he => ⟨s.absent_iff Extent.noConfusion region he, fun hlimit => ?_⟩⟩
  exact s.absent_iff (fun heq => hlimit (Extent.every.inj heq)) region he

/-- The entry that is not found is left out, and the entry behind it keeps its place. -/
theorem hits_of_two_ABC :
    let missing : Database.Entry := { name := "missing", signature := ⟨[.exact 0xFF], 0, rfl⟩ }
    let d : Database := ⟨[{ name := "first", signature := ⟨[.exact 0x43], 0, rfl⟩ }, missing]⟩
    let d' : Database := ⟨[{ name := "second", signature := ⟨[.exact 0x41, .any], 0, rfl⟩ }]⟩
    let region : List UInt8 := [0x41, 0x42, 0x43]
    let s : Scanner := {}
    d.entries[1]? = some missing ∧ s.maxMatches ≠ some 0 ∧
      (∀ hit ∈ s.allHits region d, hit.index ≠ 1) ∧
      s.allHits region ⟨d.entries ++ d'.entries⟩ = [⟨0, "first", [2]⟩, ⟨2, "second", [0]⟩] := by
  intro missing d d' region s
  obtain ⟨-, happend, -, -, habsent⟩ := s.hits_of_two region d d'
  have hlimit : s.maxMatches ≠ some 0 := nofun
  exact ⟨rfl, hlimit, ((habsent 1 missing rfl).2 hlimit).mpr rfl, happend.trans (by decide)⟩

end Scanner

end ByteScan
