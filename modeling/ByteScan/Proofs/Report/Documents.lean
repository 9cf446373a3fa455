import ByteScan.Proofs.Json.Reading
import ByteScan.Proofs.Json.Squeezing
import ByteScan.Report.Json

/-!
# What the documents of a report say

A report as JSON can be read back, so its document says everything that is in the report: no two
reports have the same document, in either layout. The two documents of a report say the same, and
differ in blanks only.

Results:
1. `Json.pretty_inj`, `Json.compact_inj`: documents of values.
2. `Finding.toJson_inj`, `Tally.toJson_inj`, `Report.toJson_inj`: the values of reports.
3. `Report.documents_faithful`: documents of reports.
-/

namespace ByteScan

/-! ## 1. Documents of values -/

namespace Json

variable {v w : Json}

/-- A document holds one value. -/
theorem eq_of_writes {document : String} (hv : v.Writes document) (hw : w.Writes document) :
    v = w :=
  Option.some.inj ((read?_of_writes hv).symm.trans (read?_of_writes hw))

theorem pretty_inj : v.pretty = w.pretty ↔ v = w :=
  ⟨fun h => eq_of_writes (writes_pretty v) (h ▸ writes_pretty w), congrArg pretty⟩

theorem compact_inj : v.compact = w.compact ↔ v = w :=
  ⟨fun h => eq_of_writes (writes_compact v) (h ▸ writes_compact w), congrArg compact⟩

/-! ## 2. The values of reports -/

theorem ofText_inj {a b : String} : ofText a = ofText b ↔ a = b := by
  simp [ofText]

theorem ofInt_inj {m n : Int} : ofInt m = ofInt n ↔ m = n := by
  simp [ofInt]

theorem ofMembers_inj {ms ns : List (String × Json)} : ofMembers ms = ofMembers ns ↔ ms = ns := by
  rw [ofMembers, ofMembers, object.injEq]
  refine List.map_inj_right ?_
  rintro ⟨a, v⟩ ⟨b, w⟩ h
  simpa using h

end Json

theorem Finding.toJson_inj {f g : Finding} : f.toJson = g.toJson ↔ f = g := by
  have hpositions : ∀ ps qs : List Int64,
      ps.map (fun p => Json.ofInt p.toInt) = qs.map (fun p => Json.ofInt p.toInt) ↔ ps = qs :=
    fun _ _ => List.map_inj_right fun _ _ h => Int64.toInt_inj.mp (Json.ofInt_inj.mp h)
  have hcontexts : ∀ as bs : List String, as.map Json.ofText = bs.map Json.ofText ↔ as = bs :=
    fun _ _ => List.map_inj_right fun _ _ => Json.ofText_inj.mp
  cases f
  cases g
  simp only [toJson, Json.ofMembers_inj, List.cons.injEq, Prod.mk.injEq, true_and, and_true,
    Json.array.injEq, hpositions, hcontexts, Json.ofText_inj, Json.ofInt_inj, Int64.toInt_inj,
    mk.injEq]

theorem Tally.toJson_inj {t u : Tally} : t.toJson = u.toJson ↔ t = u := by
  cases t
  cases u
  rw [toJson, toJson, Json.ofMembers_inj, mk.injEq]
  refine List.map_inj_right ?_
  rintro ⟨a, m⟩ ⟨b, n⟩ h
  rw [Prod.mk.injEq, Json.ofInt_inj] at h
  exact Prod.ext h.1 h.2

theorem Report.toJson_inj {r r' : Report} : r.toJson = r'.toJson ↔ r = r' := by
  have hfindings : ∀ fs gs : List Finding, fs.map Finding.toJson = gs.map Finding.toJson ↔ fs = gs :=
    fun _ _ => List.map_inj_right fun _ _ => Finding.toJson_inj.mp
  cases r
  cases r'
  simp only [toJson, Json.ofMembers_inj, List.cons.injEq, Prod.mk.injEq, true_and, and_true,
    Json.array.injEq, hfindings, Json.ofText_inj, Json.ofNat, Json.ofInt_inj, Int.natCast_inj,
    Tally.toJson_inj, mk.injEq]

/-! ## 3. Documents of reports -/

namespace Report

/-- The documents of a report say what is in it. Taking the blanks out of the document over several
lines, but for those in strings, gives the document on one line, which has no such blanks; and in
either layout, only the report itself has the same document. So the source, the size, each field of
each finding and each count are found in it, in their order. -/
theorem documents_faithful (r : Report) :
    Json.squeeze .outside r.toJson.pretty.toList = r.toJson.compact.toList ∧
      Json.squeeze .outside r.toJson.compact.toList = r.toJson.compact.toList ∧
      ∀ r' : Report, (r.toJson.pretty = r'.toJson.pretty ↔ r = r') ∧
        (r.toJson.compact = r'.toJson.compact ↔ r = r') := by
  refine ⟨Json.squeeze_pretty _, Json.squeeze_compact _, fun r' => ⟨?_, ?_⟩⟩
  · rw [Json.pretty_inj, toJson_inj]
  · rw [Json.compact_inj, toJson_inj]

end Report

end ByteScan
