import ByteScan.Proofs.Command.Running
import ByteScan.Proofs.Database.Hits
import Mathlib.Data.List.Basic

/-!
# What a search comes to

The commands that search do the same in the end: they look at the target, read the region, and write
a report whose findings are a function of the region. Here each of them is brought to that form, in
which the log, the scanner and the steps that read what is searched for no longer occur.

* `Database.Entry.finding?`, `Target.finding`: what is found of an entry, and of a signature.
* `Target.report`: the report with these findings.
* `Environment.searchable`: the region of a target that has no fault.
* `Environment.reported`: the report on that region as it is written.
* `Environment.prepared`: the configuration and the region with which a command sets out.

Results:
1. `Scanner.filterMap_finding?_hits`: a database is searched for entry by entry.
2. `Environment.result_searchOne`, `Environment.result_searchAll`: reports.
3. `Environment.result_searchFor`, `Environment.result_searchDatabase`: searches that have read what
   they search for. `Environment.result_find`, `Environment.result_masked`,
   `Environment.result_database`: commands.
4. `Environment.result_run_reported`, `Environment.positions_eq_nil_iff_of_prepared`: whole
   commands.
-/

namespace ByteScan

/-! ## Definitions -/

/-- The finding for an entry of a database, if it is found. -/
def Database.Entry.finding? (extent : Extent) (region : List UInt8) (e : Entry) : Option Finding :=
  if e.signature.positions extent region = [] then none
  else some (.ofPositions e.name e.signature (e.signature.positions extent region) region)

namespace Target

/-- The finding for a signature, be it found or not. -/
def finding (t : Target) (limit? : Option UInt64) (name : String) (s : Signature)
    (region : List UInt8) : Finding :=
  .ofPositions name s (s.positions (t.extent limit?) region) region

/-- The report on a region of the target with these findings. -/
def report (t : Target) (region : List UInt8) (findings : List Finding) : Report :=
  findings.foldl Report.push { source := t.source, regionSize := region.length }

end Target

namespace Environment

/-- The region of a target, if the target has no fault and the region can be read. -/
def searchable (env : Environment) (t : Target) : Except CommandError (List UInt8) :=
  (failIf (env.targetFault? t)).result >>= fun _ => (env.region t).result

/-- The report on the region of a target as it is written. -/
def reported (env : Environment) (c : Config) (t : Target)
    (findings : List UInt8 → List Finding) : Except CommandError String :=
  (env.searchable t).map fun region =>
    c.render (env.color && c.color) (t.report region (findings region))

/-- The configuration and the region with which a command that searches sets out. -/
def prepared (env : Environment) (a : Arguments) (t : Target) :
    Except CommandError (Config × List UInt8) := do
  let c ← env.config a
  let region ← env.searchable t
  return (c, region)

end Environment

/-! ## 1. Findings -/

section Findings

variable (extent : Extent) (region : List UInt8)

/-- An entry is found or not whatever the place it has in its database. -/
theorem Database.bind_finding? {d : Database} {e : Entry} {index : Nat}
    (he : d.entries[index]? = some e) :
    (e.hits? extent region index).bind (d.finding? region) = e.finding? extent region := by
  unfold Entry.hits? Entry.finding?
  cases e.signature.positions extent region with
  | nil => rfl
  | cons p positions =>
    show d.entries[index]?.map _ = _
    rw [he]
    rfl

/-- The findings for a database are those for its entries, in their order. -/
theorem Scanner.filterMap_finding?_hits (s : Scanner) (d : Database) :
    (s.hits extent region d).filterMap (d.finding? region) =
      d.entries.filterMap (Database.Entry.finding? extent region) := by
  have hentries : d.entries = d.entries.zipIdx.map Prod.fst := (List.zipIdx_map_fst 0 d.entries).symm
  rw [hits_eq, List.filterMap_filterMap, hentries, List.filterMap_map, ← hentries]
  refine List.filterMap_congr fun x hx => ?_
  exact Database.bind_finding? extent region (List.mem_zipIdx_iff_getElem?.mp hx)

end Findings

/-! ## 2. Reports -/

theorem Target.extent_or (t : Target) (limit? : Option UInt64) :
    t.extent (t.maxMatches.or limit?) = t.extent limit? := by
  unfold extent
  cases t.maxMatches with
  | none => rfl
  | some limit => rfl

namespace Environment

variable (env : Environment) (c : Config) (t : Target)

theorem result_searchOne (name : String) (s : Signature) :
    (env.searchOne c name s t).result = (env.region t).result.map fun region =>
      t.report region [t.finding c.maxMatches name s region] := by
  rw [searchOne, Logged.result_bind]
  cases (env.region t).result with
  | error fault => rfl
  | ok region => rfl

theorem result_searchAll (d : Database) (sequential : Bool) :
    (env.searchAll c d sequential t).result = (env.region t).result.map fun region =>
      t.report region
        (d.entries.filterMap (Database.Entry.finding? (t.extent c.maxMatches) region)) := by
  rw [searchAll, Logged.result_bind]
  cases (env.region t).result with
  | error fault => rfl
  | ok region =>
    have hfindings := Scanner.filterMap_finding?_hits (t.extent (t.maxMatches.or c.maxMatches))
      region ⟨c.parallel && !sequential, t.maxMatches.or c.maxMatches⟩ d
    refine congrArg (fun findings => Except.ok (t.report region findings)) (hfindings.trans ?_)
    rw [t.extent_or]

/-! ## 3. Commands -/

/-- A search on a target that has no fault. -/
theorem result_failIf_bind {search : CommandStep Report} {findings : List UInt8 → List Finding}
    (hsearch : search.result = (env.region t).result.map fun region =>
      t.report region (findings region)) :
    (failIf (env.targetFault? t) >>= fun _ => search).result =
      (env.searchable t).map fun region => t.report region (findings region) := by
  rw [searchable, Logged.result_bind, hsearch]
  cases (failIf (env.targetFault? t)).result with
  | error fault => rfl
  | ok _ => rfl

theorem result_searchFor {read : CommandStep Signature} {s : Signature}
    (hread : read.result = .ok s) (name : String) :
    (env.searchFor c name read t).result = (env.searchable t).map fun region =>
      t.report region [t.finding c.maxMatches name s region] := by
  refine env.result_failIf_bind t ?_
  rw [Logged.result_bind, hread]
  exact env.result_searchOne c t name s

theorem result_searchDatabase {path : String} {lenient : Bool} {d : Database}
    (hpath : env.databaseFault? path = none)
    (hload : (env.loadDatabase (if lenient || c.lenientDatabase then .lenient else .strict)
      path).result = .ok d)
    (sequential : Bool) :
    (env.searchDatabase c path lenient sequential t).result =
      (env.searchable t).map fun region =>
        t.report region
          (d.entries.filterMap (Database.Entry.finding? (t.extent c.maxMatches) region)) := by
  rw [searchDatabase, hpath]
  refine env.result_failIf_bind t ?_
  rw [Logged.result_bind, hload]
  exact env.result_searchAll c t d sequential

/-- What a search comes to is written. -/
theorem result_perform_reported {command : Command} {search : CommandStep Report}
    {findings : List UInt8 → List Finding}
    (hyield : env.yield c command = search >>= fun r => pure (.report r))
    (hsearch : search.result = (env.searchable t).map fun region =>
      t.report region (findings region)) :
    (env.perform c command).result = env.reported c t findings := by
  rw [result_perform, hyield, Logged.result_bind_pure, hsearch, reported]
  cases env.searchable t with
  | error fault => rfl
  | ok region => rfl

theorem result_find {text : String} {s : Signature} (hs : Signature.ofText text = .ok s)
    (offset : Int64) :
    (env.perform c (.find text offset t)).result =
      env.reported c t fun region =>
        [t.finding c.maxMatches "signature" (s.withOffset offset) region] := by
  have hread : (readSignature text offset).result = .ok (s.withOffset offset) := by
    rw [readSignature, Logged.result_bind_pure, Logged.mapError, Signature.result_noted, hs]
    rfl
  exact env.result_perform_reported c t rfl (env.result_searchFor c t hread "signature")

theorem result_masked {text mask : String} {bytes : List UInt8} {s : Signature}
    (hbytes : HexBytes.read? text = some bytes) (hs : Signature.ofBytesAndMask bytes mask = .ok s)
    (offset : Int64) :
    (env.perform c (.masked text mask offset t)).result =
      env.reported c t fun region =>
        [t.finding c.maxMatches "pattern" (s.withOffset offset) region] := by
  have hread : (readMasked text mask offset).result = .ok (s.withOffset offset) := by
    rw [readMasked, hbytes]
    show (_ >>= _ : CommandStep Signature).result = _
    rw [Logged.result_bind, Logged.mapError, Signature.result_noted, hs]
    rfl
  exact env.result_perform_reported c t rfl (env.result_searchFor c t hread "pattern")

theorem result_database {path text : String} {lenient : Bool} {d : Database}
    (hexists : env.files.has path = true) (htext : env.files.text path = .ok text)
    (hparse : (Database.parse (if lenient || c.lenientDatabase then .lenient else .strict)
      text).result = .ok d)
    (hne : d.entries.isEmpty = false) (sequential : Bool) :
    (env.perform c (.database path lenient sequential t)).result =
      env.reported c t fun region =>
        d.entries.filterMap (Database.Entry.finding? (t.extent c.maxMatches) region) := by
  have hload : (env.loadDatabase (if lenient || c.lenientDatabase then .lenient else .strict)
      path).result = .ok d := by
    rw [loadDatabase, htext, Logged.result_bind]
    show ((Database.parse _ text).mapError CommandError.database >>= _).result = _
    rw [Logged.result_bind, Logged.mapError, hparse]
    show (ite (d.entries.isEmpty = true) _ _ : CommandStep Database).result = _
    rw [hne]
    rfl
  have hpath : env.databaseFault? path = none := if_pos hexists
  exact env.result_perform_reported c t rfl (env.result_searchDatabase c t hpath hload sequential)

/-! ## 4. Whole commands -/

theorem result_run_reported (a : Arguments) {command : Command}
    {findings : Config → List UInt8 → List Finding}
    (h : ∀ c, (env.perform c command).result = env.reported c t (findings c)) :
    (env.run { a with command }).result =
      (env.prepared a t).map fun (c, region) =>
        c.render (env.color && c.color) (t.report region (findings c region)) := by
  rw [result_run_with, prepared]
  cases env.config a with
  | error fault => rfl
  | ok c =>
    show (env.perform c command).result = _
    rw [h, reported]
    cases env.searchable t with
    | error fault => rfl
    | ok region => rfl

variable {env c t} {a : Arguments} {region : List UInt8}

theorem searchable_eq_ok :
    env.searchable t = .ok region ↔
      env.targetFault? t = none ∧ (env.region t).result = .ok region := by
  unfold searchable
  cases env.targetFault? t with
  | some fault =>
    constructor
    · rintro ⟨⟩
    · rintro ⟨⟨⟩, -⟩
  | none =>
    constructor
    · intro h
      exact ⟨rfl, h⟩
    · rintro ⟨-, h⟩
      exact h

theorem prepared_eq_ok :
    env.prepared a t = .ok (c, region) ↔ env.config a = .ok c ∧ env.searchable t = .ok region := by
  unfold prepared
  simp only [Result.bind_eq_ok]
  constructor
  · rintro ⟨c', hconfig, region', hregion, ⟨⟩⟩
    exact ⟨hconfig, hregion⟩
  · rintro ⟨hconfig, hregion⟩
    exact ⟨c, hconfig, region, hregion, rfl⟩

theorem maxMatches_of_targetFault? (h : env.targetFault? t = none) : t.maxMatches ≠ some 0 := by
  intro hzero
  rw [targetFault?, if_pos hzero] at h
  cases h

end Environment

theorem Target.extent_ne_zero {t : Target} {limit? : Option UInt64} (ht : t.maxMatches ≠ some 0)
    (hlimit : limit? ≠ some 0) : t.extent limit? ≠ .every (some 0) := by
  unfold extent
  cases t.all with
  | false => exact Extent.noConfusion
  | true =>
    intro h
    have hor : t.maxMatches.or limit? = some 0 := Extent.every.inj h
    cases hmax : t.maxMatches with
    | none =>
      rw [hmax, Option.none_or] at hor
      exact hlimit hor
    | some limit =>
      rw [hmax, Option.some_or] at hor
      exact ht (hmax.trans hor)

/-- A command that has come to the region wants one match at least, so it has no positions only if
no match is found. -/
theorem Environment.positions_eq_nil_iff_of_prepared {env : Environment} {a : Arguments} {t : Target}
    {c : Config} {region : List UInt8} (h : env.prepared a t = .ok (c, region)) (s : Signature) :
    s.positions (t.extent c.maxMatches) region = [] ↔ s.find? region = none := by
  obtain ⟨hconfig, hsearchable⟩ := prepared_eq_ok.mp h
  obtain ⟨htarget, -⟩ := searchable_eq_ok.mp hsearchable
  refine Signature.positions_eq_nil_iff ?_ region
  exact Target.extent_ne_zero (maxMatches_of_targetFault? htarget) (maxMatches_of_config hconfig)

end ByteScan
