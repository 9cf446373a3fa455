import ByteScan.Proofs.Command.Searching
import ByteScan.Proofs.Signature.Equality
import ByteScan.Proofs.Signature.RoundTrip

/-!
# A signature, and bytes under its mask

A signature can be searched for by its text, or by bytes under its mask. A byte under a wildcard of
the mask is of no account, so any bytes that have those of the signature at its exact places make the
same signature. The two commands give their finding different names; apart from that their reports
are the same, and so are their faults.

* `Signature.Covers`: bytes that have those of the signature at its exact places.
* `Tally.renamed`, `Report.renamed`: with one name in place of every name.

Results:
1. `Signature.ofBytesAndMask_of_covers`: bytes under the mask of a signature.
2. `Tally.renamed_increment`, `Target.renamed_report`: a report under another name.
3. `Environment.execute_masked`: both commands.
-/

namespace ByteScan

/-! ## Definitions -/

/-- There is a byte for each slot, and for an exact slot it is the byte of the slot. -/
def Signature.Covers (s : Signature) (bytes : List UInt8) : Prop :=
  bytes.length = s.length ∧ ∀ (i : Nat) (b : UInt8), s.slots[i]? = some (.exact b) → bytes[i]? = some b

/-- The tally with each of its keys replaced by this one. -/
def Tally.renamed (name : String) (t : Tally) : Tally :=
  ⟨t.entries.map fun e => (name, e.2)⟩

/-- The report with this name for each of its findings, and in its hit counts. -/
def Report.renamed (name : String) (r : Report) : Report :=
  { r with
    findings := r.findings.map fun f => { f with name }
    hitCounts := r.hitCounts.renamed name }

/-! ## 1. Bytes under a mask -/

namespace Slot

theorem zipWith_ofFlag_of_exact {slots : List Slot} {bytes : List UInt8}
    (hlength : bytes.length = slots.length)
    (hexact : ∀ (i : Nat) (b : UInt8), slots[i]? = some (.exact b) → bytes[i]? = some b) :
    List.zipWith ofFlag (slots.map flag) bytes = slots := by
  induction slots generalizing bytes with
  | nil => rfl
  | cons slot slots ih =>
    cases bytes with
    | nil => cases hlength
    | cons b bytes =>
      have hfirst : ofFlag slot.flag b = slot := by
        cases slot with
        | any => rfl
        | exact b' =>
          obtain rfl : b = b' := Option.some.inj (hexact 0 b' rfl)
          rfl
      have hrest : List.zipWith ofFlag (slots.map flag) bytes = slots :=
        ih (Nat.succ.inj hlength) fun i b' hi => hexact (i + 1) b' hi
      rw [List.map_cons, List.zipWith_cons_cons, hfirst, hrest]

end Slot

theorem Signature.ofBytesAndMask_of_covers {s : Signature} {bytes : List UInt8}
    (h : s.Covers bytes) : ofBytesAndMask bytes s.mask.text = .ok (s.withOffset 0) := by
  obtain ⟨hlength, hexact⟩ := h
  have hshape : ¬ (s.mask.text.length ≠ bytes.length) := by
    rw [Mask.length_text, mask, List.length_map, hlength]
    exact not_not_intro rfl
  rw [ofBytesAndMask, if_neg hshape, Mask.ofText_text]
  show ofSlots (List.zipWith Slot.ofFlag (s.slots.map Slot.flag) bytes) = _
  rw [Slot.zipWith_ofFlag_of_exact hlength hexact, ofSlots_slots]

@[simp]
theorem Signature.withOffset_withOffset (s : Signature) (offset other : Int64) :
    (s.withOffset offset).withOffset other = s.withOffset other :=
  rfl

/-! ## 2. Names -/

namespace Tally

variable {name : String} {t : Tally}

/-- Counting a name once more in a tally that has no other name. -/
theorem renamed_increment (h : ∀ e ∈ t.entries, e.1 = name) (type : CountType) (other : String) :
    (t.increment type name).renamed other = (t.renamed other).increment type other := by
  obtain ⟨entries⟩ := t
  cases entries with
  | nil => rfl
  | cons e entries =>
    obtain ⟨key, count⟩ := e
    obtain rfl : key = name := h (key, count) List.mem_cons_self
    simp [renamed, increment, alterEntries]

theorem forall_mem_increment (h : ∀ e ∈ t.entries, e.1 = name) (type : CountType) :
    ∀ e ∈ (t.increment type name).entries, e.1 = name := by
  obtain ⟨entries⟩ := t
  cases entries with
  | nil => exact List.forall_mem_singleton.mpr rfl
  | cons e entries =>
    obtain ⟨key, count⟩ := e
    obtain ⟨hkey, hrest⟩ := List.forall_mem_cons.mp h
    obtain rfl : key = name := hkey
    rw [increment, alterEntries, if_pos rfl]
    exact List.forall_mem_cons.mpr ⟨rfl, hrest⟩

theorem renamed_foldl_increment {α : Type} (xs : List α) (h : ∀ e ∈ t.entries, e.1 = name)
    (type : CountType) (other : String) :
    (xs.foldl (fun t _ => t.increment type name) t).renamed other =
      xs.foldl (fun t _ => t.increment type other) (t.renamed other) := by
  induction xs generalizing t with
  | nil => rfl
  | cons x xs ih =>
    rw [List.foldl_cons, ih (forall_mem_increment h type), renamed_increment h, List.foldl_cons]

end Tally

/-- A report on one finding under another name is the report on that finding under that name. -/
theorem Target.renamed_report (t : Target) (region : List UInt8) (f : Finding) (other : String) :
    (t.report region [f]).renamed other = t.report region [{ f with name := other }] := by
  have hempty : ∀ e ∈ ({} : Tally).entries, e.1 = f.name := List.forall_mem_nil _
  exact congrArg
    (fun hitCounts => ({
      source := t.source
      regionSize := region.length
      findings := [{ f with name := other }]
      hitCounts } : Report))
    (Tally.renamed_foldl_increment f.positions hempty .unsigned64 other)

/-! ## 3. Both commands -/

namespace Environment

/-- Bytes under the mask of a signature are searched for as that signature is, whatever bytes are
under its wildcards. The commands fail alike, or each writes its report with one finding, and the
reports differ in nothing but the name. -/
theorem execute_masked (env : Environment) (a : Arguments) (t : Target) (offset : Int64)
    {signature text : String} {s : Signature} {bytes : List UInt8}
    (hs : Signature.ofText signature = .ok s) (hbytes : HexBytes.read? text = some bytes)
    (hcovers : s.Covers bytes) :
    let found := env.execute { a with command := .find signature offset t }
    let masked := env.execute { a with command := .masked text s.mask.text offset t }
    masked.fault = found.fault ∧ masked.exitCode = found.exitCode ∧
      (found.fault = none → ∃ c r f, env.config a = .ok c ∧
        found.stdout = c.render (env.color && c.color) r ∧
        masked.stdout = c.render (env.color && c.color) (r.renamed "pattern") ∧
        r.findings = [f] ∧ r.renamed "signature" = r) := by
  intro found masked
  have hmask := Signature.ofBytesAndMask_of_covers hcovers
  have hfound := env.result_run_reported t a fun c => env.result_find c t hs offset
  have hmasked := env.result_run_reported t a fun c => env.result_masked c t hbytes hmask offset
  cases hprepared : env.prepared a t with
  | error fault =>
    simp only [hprepared, Except.map] at hfound hmasked
    obtain ⟨-, hfault, hexit⟩ := execute_congr (hmasked.trans hfound.symm)
    refine ⟨hfault, hexit, fun hok => ?_⟩
    obtain ⟨-, hfound⟩ := execute_of_error hfound
    cases hfound.symm.trans hok
  | ok both =>
    obtain ⟨c, region⟩ := both
    let f := t.finding c.maxMatches "signature" (s.withOffset offset) region
    -- What is found is the same, under another name.
    have hname : t.report region [t.finding c.maxMatches "pattern" (s.withOffset offset) region] =
        (t.report region [f]).renamed "pattern" := (t.renamed_report region f "pattern").symm
    simp only [hprepared, Except.map, Signature.withOffset_withOffset, hname] at hfound hmasked
    obtain ⟨hstdout, hfault⟩ := execute_of_ok hfound
    obtain ⟨hstdout', hfault'⟩ := execute_of_ok hmasked
    have hsame : masked.fault = found.fault := hfault'.trans hfault.symm
    have hexit : masked.exitCode = found.exitCode := by
      unfold Outcome.exitCode
      rw [hsame]
    exact ⟨hsame, hexit, fun _ => ⟨c, t.report region [f], f, (prepared_eq_ok.mp hprepared).1,
      hstdout, hstdout', rfl, t.renamed_report region f "signature"⟩⟩

/-- Two matches, an offset below zero, and another byte under the wildcard than in either match. -/
theorem execute_masked_55_C3 :
    let env : Environment :=
      { files := fun _ => .error .notFound, stdin := [0x55, 0x00, 0xC3, 0x55, 0x01, 0xC3] }
    let found : Arguments := { json := true, command := .find "55 ?? C3" (-2) { all := true } }
    let masked : Arguments :=
      { json := true, command := .masked "0x55FF c3" "x?x" (-2) { all := true } }
    (env.execute masked).fault = none ∧ ∃ c r, env.config found = .ok c ∧
      (env.execute found).stdout = c.render (env.color && c.color) r ∧
      (env.execute masked).stdout = c.render (env.color && c.color) (r.renamed "pattern") := by
  intro env found masked
  let s : Signature := ⟨[.exact 0x55, .any, .exact 0xC3], 0, rfl⟩
  have hs : Signature.ofText "55 ?? C3" = .ok s := by cbv
  have hbytes : HexBytes.read? "0x55FF c3" = some [0x55, 0xFF, 0xC3] := by cbv
  have hcovers : s.Covers [0x55, 0xFF, 0xC3] := by
    refine ⟨rfl, fun i b hi => ?_⟩
    rcases i with _ | _ | _ | i
    · cases hi
      rfl
    · cases hi
    · cases hi
      rfl
    · cases hi
  have hfound : (env.execute found).fault = none := by decide +kernel
  obtain ⟨hfault, -, hreports⟩ := env.execute_masked found { all := true } (-2) hs hbytes hcovers
  obtain ⟨c, r, f, hconfig, hstdout, hstdout', -⟩ := hreports hfound
  exact ⟨hfault.trans hfound, c, r, hconfig, hstdout, hstdout'⟩

end Environment

end ByteScan
