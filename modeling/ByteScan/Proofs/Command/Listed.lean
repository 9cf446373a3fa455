import ByteScan.Proofs.Command.Searching
import ByteScan.Proofs.Database.Single

/-!
# A signature, and a database with that one entry

A signature can be searched for by its text, or by a database file in which it is the only entry. The
two commands read it in different ways and come to their reports in different ways, and they differ
in one thing only: a database's report leaves out an entry that is not found. So they write the same
as long as there is a match, and fail alike in any case.

Results:
1. `Signature.withOffset_of_ofText`: what the command for a signature reads.
2. `Environment.result_single`: the command for the file.
3. `Environment.execute_single`: both commands.
-/

namespace ByteScan

/-! ## 1. What is read -/

/-- The text of a signature does not say an offset. -/
theorem Signature.withOffset_of_ofText {text : String} {s : Signature} (h : ofText text = .ok s) :
    s.withOffset 0 = s := by
  unfold ofText ofSlots at h
  cases hslots : Slot.listOfText text with
  | error fault =>
    rw [hslots] at h
    cases h
  | ok slots =>
    rw [hslots] at h
    change dite _ _ _ = _ at h
    split at h
    · cases h
      rfl
    · cases h

/-! ## 2. The command for the file -/

open Database (singleText singleEntry)

namespace Environment

variable {env : Environment} {c : Config} {t : Target} {signature path : String} {s : Signature}

theorem result_single (hline : '\n' ∉ signature.toList) (hs : Signature.ofText signature = .ok s)
    (hfile : env.files path = .ok (singleText signature).toUTF8.data.toList)
    (lenient sequential : Bool) :
    (env.perform c (.database path lenient sequential t)).result =
      env.reported c t fun region =>
        if s.positions (t.extent c.maxMatches) region = [] then []
        else [t.finding c.maxMatches "signature" s region] := by
  rw [env.result_database c t (FileSystem.has_of_ok hfile) (FileSystem.text_of_toUTF8 hfile)
    (Database.result_parse_singleText _ hline hs) rfl sequential]
  refine congrArg (env.reported c t) (funext fun region => ?_)
  rw [List.filterMap_cons, List.filterMap_nil, Database.Entry.finding?, singleEntry]
  by_cases hnil : s.positions (t.extent c.maxMatches) region = []
  · rw [if_pos hnil, if_pos hnil]
  · rw [if_neg hnil, if_neg hnil]
    rfl

/-! ## 3. Both commands -/

/-- A file with one signature in it is searched for as that signature is. If it is found, or if one
of the commands fails before it can tell, they write the same and fail alike. If it is not found and
the command for the signature does not fail, neither does the command for the file, and its report
on the same region has no finding. -/
theorem execute_single (env : Environment) (a : Arguments) (t : Target)
    (hline : '\n' ∉ signature.toList) (hs : Signature.ofText signature = .ok s)
    (hfile : env.files path = .ok (singleText signature).toUTF8.data.toList)
    (lenient sequential : Bool) :
    let found := env.execute { a with command := .find signature 0 t }
    let listed := env.execute { a with command := .database path lenient sequential t }
    ((∀ region, (env.region t).result = .ok region → s.find? region ≠ none) →
        listed.stdout = found.stdout ∧ listed.fault = found.fault ∧
          listed.exitCode = found.exitCode) ∧
      (∀ region, (env.region t).result = .ok region → s.find? region = none →
        found.fault = none →
          listed.fault = none ∧ ∃ c, env.config a = .ok c ∧
            found.stdout = c.render (env.color && c.color)
              { source := t.source, regionSize := region.length,
                findings := [.ofPositions "signature" s [] region] } ∧
            listed.stdout = c.render (env.color && c.color)
              { source := t.source, regionSize := region.length }) := by
  intro found listed
  have hfound := env.result_run_reported t a fun c => env.result_find c t hs 0
  have hlisted := env.result_run_reported t a fun c =>
    result_single (c := c) (t := t) hline hs hfile lenient sequential
  rw [Signature.withOffset_of_ofText hs] at hfound
  cases hprepared : env.prepared a t with
  | error fault =>
    rw [hprepared] at hfound hlisted
    -- Both commands end before they search, and in the same fault.
    refine ⟨fun _ => execute_congr (hlisted.trans hfound.symm), fun _ _ _ hok => ?_⟩
    obtain ⟨-, hfault⟩ := execute_of_error hfound
    cases hfault.symm.trans hok
  | ok both =>
    obtain ⟨c, region⟩ := both
    have hregion : (env.region t).result = .ok region :=
      (searchable_eq_ok.mp (prepared_eq_ok.mp hprepared).2).2
    have hnil := positions_eq_nil_iff_of_prepared hprepared s
    rw [hprepared] at hfound hlisted
    refine ⟨fun hhit => ?_, fun region' hregion' hmiss _ => ?_⟩
    · have hne : s.positions (t.extent c.maxMatches) region ≠ [] :=
        fun hempty => hhit region hregion (hnil.mp hempty)
      refine execute_congr (hlisted.trans ?_)
      simp only [if_neg hne, Except.map] at hfound ⊢
      exact hfound.symm
    · obtain rfl : region = region' := Except.ok.inj (hregion.symm.trans hregion')
      have hempty := hnil.mpr hmiss
      have hfinding : t.finding c.maxMatches "signature" s region =
          .ofPositions "signature" s [] region := by
        rw [Target.finding, hempty]
      simp only [hfinding, if_pos hempty, Except.map] at hfound hlisted
      obtain ⟨hstdout, hfault⟩ := execute_of_ok hlisted
      obtain ⟨hstdout', -⟩ := execute_of_ok hfound
      exact ⟨hfault, c, (prepared_eq_ok.mp hprepared).1, hstdout', hstdout⟩

/-- Blanks around the text and a wildcard in it. In the first region there is a match, and in the
second one there is none. -/
theorem execute_single_90 :
    let env : List UInt8 → Environment := fun stdin =>
      { files := fun path =>
          if path = "one.db" then .ok (singleText " 90 ?\t").toUTF8.data.toList
          else .error .notFound
        stdin }
    let found : Arguments := { command := .find " 90 ?\t" 0 { all := true } }
    let listed : Arguments := { command := .database "one.db" false true { all := true } }
    ((env [0x90, 0x41]).execute listed).stdout = ((env [0x90, 0x41]).execute found).stdout ∧
      ((env [0x90]).execute listed).fault = none := by
  intro env found listed
  let s : Signature := ⟨[.exact 0x90, .any], 0, rfl⟩
  have hs : Signature.ofText " 90 ?\t" = .ok s := by cbv
  have hboth : ∀ stdin, _ := fun stdin =>
    @execute_single " 90 ?\t" "one.db" s (env stdin) found { all := true } (by decide) hs rfl false
      true
  constructor
  · refine ((hboth [0x90, 0x41]).1 fun region hregion => ?_).1
    obtain rfl : [0x90, 0x41] = region := Except.ok.inj hregion
    decide
  · refine ((hboth [0x90]).2 [0x90] rfl ?_ ?_).1
    · decide
    · decide +kernel

end Environment

end ByteScan
