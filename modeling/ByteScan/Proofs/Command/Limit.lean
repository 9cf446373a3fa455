import ByteScan.Proofs.Command.Cut
import ByteScan.Proofs.Command.SingleMatch

/-!
# Limits

How many matches of a signature are reported, when all are wanted, may be said on the command line and
in the configuration file. The command line is asked first. Where it is asked is written down twice,
once for a command that searches for one signature and once for a database, and matches beyond the
limit are never searched for. Yet a limit is no more than a cut: the report is the one without a limit,
with each finding cut off behind the limit and the counts taken again.

* `Target.allUpTo`, `Arguments.allUpTo`: all matches wanted, up to a limit.
* `Environment.limit?`: the limit that the configuration has before it is checked.
* `Environment.AlikeButLimit`: environments that differ for a command line in the configuration's
  limit only.
* `Environment.report?`: the report that a command comes to.

Results:
1. `Environment.config_cases`: configurations.
2. `Environment.yield_allUpTo`: commands with the same limit.
3. `Environment.result_yield_allUpTo`: a command with a limit and one without.
4. `Environment.execute_allUpTo`: whole commands. `Environment.execute_allUpTo_needs`: a limit of zero
   in the configuration, and a configuration file that is searched.
-/

namespace ByteScan

/-! ## Definitions -/

/-- The configuration without a limit. -/
def Config.withoutLimit (c : Config) : Config :=
  { c with maxMatches := none }

/-- The same target with all matches wanted, up to a limit if there is one. -/
def Target.allUpTo (limit? : Option UInt64) (t : Target) : Target :=
  { t with all := true, maxMatches := limit? }

/-- The same arguments with all matches wanted, up to a limit if there is one. -/
def Arguments.allUpTo (limit? : Option UInt64) (a : Arguments) : Arguments :=
  { a with command := a.command.mapTarget (Target.allUpTo limit?) }

/-- The report, if a command comes to one. -/
def Yield.report? : Yield → Option Report
  | .report r => some r
  | .summary _ => none

namespace Environment

/-- The limit that the configuration has. -/
def limit? (env : Environment) (a : Arguments) : Option UInt64 :=
  (env.settings? a).bind Config.maxMatches

/-- For this command line the environments differ at most in the limit that the configuration file
has. -/
structure AlikeButLimit (a : Arguments) (env env' : Environment) : Prop where
  stdin : env.stdin = env'.stdin
  color : env.color = env'.color
  files : ∀ path ∈ a.command.paths, env.files path = env'.files path
  config : (∀ path ∈ a.config, env.files path = env'.files path) ∨
    ∃ c c', env.settings? a = some c ∧ env'.settings? a = some c' ∧
      c.withoutLimit = c'.withoutLimit

/-- The report that a command comes to, if it comes to one. -/
def report? (env : Environment) (a : Arguments) : Option Report :=
  (env.config a).toOption >>= fun c => (env.yield c a.command).result.toOption >>= Yield.report?

end Environment

/-! ## 1. Configurations -/

section Configurations

variable {c c' : Config} (h : c.withoutLimit = c'.withoutLimit)
include h

theorem Config.of_withoutLimit : c.parallel = c'.parallel ∧ c.outputFormat = c'.outputFormat ∧
    c.color = c'.color ∧ c.logLevel = c'.logLevel ∧ c.lenientDatabase = c'.lenientDatabase := by
  simpa [withoutLimit] using h

theorem Config.fault?_congr (hc : c.maxMatches ≠ some 0) (hc' : c'.maxMatches ≠ some 0) :
    c.fault? = c'.fault? := by
  obtain ⟨-, -, -, hlevel, -⟩ := of_withoutLimit h
  unfold fault?
  rw [if_neg hc, if_neg hc', hlevel]

/-- Either both configurations can be used, or neither can for the same fault. -/
theorem Config.validate_cases (hc : c.maxMatches ≠ some 0) (hc' : c'.maxMatches ≠ some 0) :
    (∃ fault, c.validate = .error fault ∧ c'.validate = .error fault) ∨
      c.validate = .ok c ∧ c'.validate = .ok c' := by
  unfold validate
  rw [fault?_congr h hc hc']
  cases c'.fault? with
  | none => exact .inr ⟨rfl, rfl⟩
  | some fault => exact .inl ⟨fault, rfl, rfl⟩

theorem Arguments.withoutLimit_override (a : Arguments) :
    (a.override c).withoutLimit = (a.override c').withoutLimit :=
  congrArg a.override h

end Configurations

namespace Environment

variable {env env' : Environment} {a : Arguments}

theorem maxMatches_of_config_eq_ok {c : Config} (h : env.config a = .ok c) :
    c.maxMatches = env.limit? a := by
  obtain ⟨base, hbase, -, rfl⟩ := config_eq_ok.mp h
  rw [limit?, settings?_of_baseConfig hbase]
  rfl

/-- Where the limit is zero in neither of the environments, either there is a configuration in both,
or in neither for the same fault. -/
theorem config_cases (h : AlikeButLimit a env env') (hlimit : env.limit? a ≠ some 0)
    (hlimit' : env'.limit? a ≠ some 0) :
    (∃ fault, env.config a = .error fault ∧ env'.config a = .error fault) ∨
      ∃ c c', env.config a = .ok c ∧ env'.config a = .ok c' ∧ c.withoutLimit = c'.withoutLimit := by
  cases h.config with
  | inl hfiles =>
    rw [config_congr hfiles]
    cases env'.config a with
    | error fault => exact .inl ⟨fault, rfl, rfl⟩
    | ok c => exact .inr ⟨c, c, rfl, rfl, rfl⟩
  | inr hsettings =>
    obtain ⟨c, c', hc, hc', heq⟩ := hsettings
    have hnonzero : c.maxMatches ≠ some 0 := by
      rwa [limit?, hc] at hlimit
    have hnonzero' : c'.maxMatches ≠ some 0 := by
      rwa [limit?, hc'] at hlimit'
    rw [config_eq, config_eq, baseConfig_of_settings? hc, baseConfig_of_settings? hc']
    obtain ⟨fault, hfault, hfault'⟩ | ⟨hvalid, hvalid'⟩ :=
      Config.validate_cases heq hnonzero hnonzero'
    · rw [hfault, hfault']
      exact .inl ⟨_, rfl, rfl⟩
    · rw [hvalid, hvalid']
      have hoverride := a.withoutLimit_override heq
      obtain ⟨fault, hfault, hfault'⟩ | ⟨hvalid, hvalid'⟩ :=
        Config.validate_cases hoverride hnonzero hnonzero'
      · exact .inl ⟨.config fault, congrArg (Except.mapError CommandError.config) hfault,
          congrArg (Except.mapError CommandError.config) hfault'⟩
      · exact .inr ⟨a.override c, a.override c',
          congrArg (Except.mapError CommandError.config) hvalid,
          congrArg (Except.mapError CommandError.config) hvalid', hoverride⟩

end Environment

/-! ## 2. Commands with the same limit -/

theorem Target.extent_allUpTo (t : Target) (flag? limit? : Option UInt64) :
    (t.allUpTo flag?).extent limit? = .every (flag?.or limit?) :=
  rfl

theorem Command.target?_mapTarget (f : Target → Target) (command : Command) :
    (command.mapTarget f).target? = command.target?.map f := by
  cases command <;> rfl

theorem Command.mem_paths_of_target? {command : Command} {t : Target}
    (h : command.target? = some t) {path : String} (hpath : path ∈ t.input) :
    path ∈ command.paths := by
  cases command with
  | inspect signature => cases h
  | database file lenient sequential t' =>
    obtain rfl := Option.some.inj h
    exact List.mem_cons_of_mem file (Option.mem_toList.mpr hpath)
  | _ =>
    obtain rfl := Option.some.inj h
    exact Option.mem_toList.mpr hpath

namespace Environment

/-- A limit above zero is no fault. -/
theorem targetFault?_allUpTo (env : Environment) (t : Target) {flag? : Option UInt64}
    (h : flag? ≠ some 0) : env.targetFault? (t.allUpTo flag?) = env.targetFault? (t.allUpTo none) := by
  have hzero : ¬ (t.allUpTo flag?).maxMatches = some 0 := h
  have hnone : ¬ (t.allUpTo none).maxMatches = some 0 := nofun
  have hall : ∀ limit? : Option UInt64,
      ¬ ((t.allUpTo limit?).maxMatches.isSome ∧ (t.allUpTo limit?).all = false) :=
    fun _ hlimit => Bool.noConfusion hlimit.2
  rw [targetFault?, targetFault?, if_neg hzero, if_neg (hall flag?), if_neg hnone, if_neg (hall none)]
  rfl

/-- A target has the same fault and the same region under any limits above zero. -/
theorem AlikeButLimit.target {env env' : Environment} {a : Arguments} (h : AlikeButLimit a env env')
    {flag? flag?' : Option UInt64} (hflag : flag? ≠ some 0) (hflag' : flag?' ≠ some 0) {t : Target}
    (ht : a.command.target? = some t) :
    env.targetFault? (t.allUpTo flag?) = env'.targetFault? (t.allUpTo flag?') ∧
      env.region t = env'.region t := by
  have hfiles : ∀ path ∈ t.input, env.files path = env'.files path :=
    fun path hpath => h.files path (Command.mem_paths_of_target? ht hpath)
  refine ⟨?_, region_congr h.stdin hfiles⟩
  rw [targetFault?_allUpTo env t hflag, targetFault?_allUpTo env' t hflag']
  exact targetFault?_congr hfiles

section Same

variable {env env' : Environment} {c c' : Config} {flag? flag?' : Option UInt64}
variable (hc : c.withoutLimit = c'.withoutLimit)
variable (hlimit : flag?.or c.maxMatches = flag?'.or c'.maxMatches)
include hc hlimit

omit hc in
theorem searchOne_allUpTo {t : Target} (hregion : env.region t = env'.region t) (name : String)
    (s : Signature) :
    env.searchOne c name s (t.allUpTo flag?) = env'.searchOne c' name s (t.allUpTo flag?') := by
  unfold searchOne
  rw [t.extent_allUpTo, t.extent_allUpTo, hlimit]
  show env.region t >>= _ = env'.region t >>= _
  rw [hregion]
  rfl

theorem searchAll_allUpTo {t : Target} (hregion : env.region t = env'.region t) (d : Database)
    (sequential : Bool) :
    env.searchAll c d sequential (t.allUpTo flag?) =
      env'.searchAll c' d sequential (t.allUpTo flag?') := by
  obtain ⟨hparallel, -, -, -, -⟩ := Config.of_withoutLimit hc
  have hor : (t.allUpTo flag?).maxMatches.or c.maxMatches =
      (t.allUpTo flag?').maxMatches.or c'.maxMatches := hlimit
  simp only [searchAll]
  rw [Target.extent_or, Target.extent_or, t.extent_allUpTo, t.extent_allUpTo, hor, hlimit, hparallel]
  show env.region t >>= _ = env'.region t >>= _
  rw [hregion]
  rfl

omit hc in
theorem searchFor_allUpTo {t : Target}
    (hfault : env.targetFault? (t.allUpTo flag?) = env'.targetFault? (t.allUpTo flag?'))
    (hregion : env.region t = env'.region t) (name : String) (read : CommandStep Signature) :
    env.searchFor c name read (t.allUpTo flag?) =
      env'.searchFor c' name read (t.allUpTo flag?') := by
  unfold searchFor
  simp only [hfault, searchOne_allUpTo hlimit hregion]

theorem searchDatabase_allUpTo {path : String} {t : Target}
    (hpath : env.files path = env'.files path)
    (hfault : env.targetFault? (t.allUpTo flag?) = env'.targetFault? (t.allUpTo flag?'))
    (hregion : env.region t = env'.region t) (lenient sequential : Bool) :
    env.searchDatabase c path lenient sequential (t.allUpTo flag?) =
      env'.searchDatabase c' path lenient sequential (t.allUpTo flag?') := by
  obtain ⟨-, -, -, -, hlenient⟩ := Config.of_withoutLimit hc
  unfold searchDatabase
  simp only [databaseFault?_congr hpath, hfault, hlenient, loadDatabase_congr hpath,
    searchAll_allUpTo hc hlimit hregion]

/-- Commands come to the same under the same limit, wherever that is said. Their logs are alike
too. -/
theorem yield_allUpTo {a : Arguments} (h : AlikeButLimit a env env') (hflag : flag? ≠ some 0)
    (hflag' : flag?' ≠ some 0) :
    env.yield c (a.command.mapTarget (Target.allUpTo flag?)) =
      env'.yield c' (a.command.mapTarget (Target.allUpTo flag?')) := by
  have htarget := fun t ht => h.target hflag hflag' (t := t) ht
  cases hcommand : a.command with
  | find signature offset t =>
    obtain ⟨hfault, hregion⟩ := htarget t (by rw [hcommand]; rfl)
    simp only [yield, Command.mapTarget, searchFor_allUpTo hlimit hfault hregion]
  | masked bytes mask offset t =>
    obtain ⟨hfault, hregion⟩ := htarget t (by rw [hcommand]; rfl)
    simp only [yield, Command.mapTarget, searchFor_allUpTo hlimit hfault hregion]
  | database path lenient sequential t =>
    obtain ⟨hfault, hregion⟩ := htarget t (by rw [hcommand]; rfl)
    have hpath : env.files path = env'.files path :=
      h.files path (by rw [hcommand]; exact List.mem_cons_self)
    simp only [yield, Command.mapTarget, searchDatabase_allUpTo hc hlimit hpath hfault hregion]
  | inspect signature => rfl

theorem perform_allUpTo {a : Arguments} (h : AlikeButLimit a env env') (hflag : flag? ≠ some 0)
    (hflag' : flag?' ≠ some 0) :
    env.perform c (a.command.mapTarget (Target.allUpTo flag?)) =
      env'.perform c' (a.command.mapTarget (Target.allUpTo flag?')) := by
  obtain ⟨-, hformat, hcolor, -, -⟩ := Config.of_withoutLimit hc
  unfold perform
  rw [yield_allUpTo hc hlimit h hflag hflag', Config.write_congr hformat, h.color, hcolor]

end Same

end Environment

/-! ## 3. A command with a limit and one without -/

namespace Environment

section Cut

variable {env env' : Environment} {c c' : Config} {flag? flag?' : Option UInt64}

/-- The findings in each region are cut off, so the report on the region is. -/
theorem map_report_cut {t : Target} (hregion : env.region t = env'.region t) {n : Nat}
    {findings findings' : List UInt8 → List Finding}
    (h : ∀ region, findings region = (findings' region).map (Finding.cut n)) :
    (env.region t).result.map (fun region => (t.allUpTo flag?).report region (findings region)) =
      ((env'.region t).result.map fun region =>
        (t.allUpTo flag?').report region (findings' region)).map (Report.cut n) := by
  rw [hregion]
  cases (env'.region t).result with
  | error fault => rfl
  | ok region =>
    have hreport : (t.allUpTo flag?).report region (findings region) =
        ((t.allUpTo flag?').report region (findings' region)).cut n := by
      rw [h, Target.report_map_cut]
      rfl
    exact congrArg Except.ok hreport

/-- A search comes to a report that is cut off, and so does its command. -/
theorem result_report_cut {search search' : CommandStep Report} {n : Nat}
    (h : search.result = search'.result.map (Report.cut n)) :
    (search >>= fun r => pure (Yield.report r)).result =
      (search' >>= fun r => pure (Yield.report r)).result.map (Yield.cut n) := by
  rw [Logged.result_bind_pure, Logged.result_bind_pure, h]
  cases search'.result with
  | error fault => rfl
  | ok r => rfl

variable {k : UInt64}
variable (hlimit : flag?.or c.maxMatches = some k) (hnone : flag?'.or c'.maxMatches = none)
include hlimit hnone

theorem result_searchOne_allUpTo {t : Target} (hregion : env.region t = env'.region t)
    (name : String) (s : Signature) :
    (env.searchOne c name s (t.allUpTo flag?)).result =
      (env'.searchOne c' name s (t.allUpTo flag?')).result.map (Report.cut k.toNat) := by
  rw [result_searchOne, result_searchOne]
  refine map_report_cut hregion fun region => ?_
  rw [List.map_singleton, Target.finding, Target.finding, Finding.cut_ofPositions,
    t.extent_allUpTo, t.extent_allUpTo, hlimit, hnone, Signature.positions_every_some]

theorem result_searchAll_allUpTo (hk : k ≠ 0) {t : Target} (hregion : env.region t = env'.region t)
    (d : Database) (sequential : Bool) :
    (env.searchAll c d sequential (t.allUpTo flag?)).result =
      (env'.searchAll c' d sequential (t.allUpTo flag?')).result.map (Report.cut k.toNat) := by
  rw [result_searchAll, result_searchAll]
  refine map_report_cut hregion fun region => ?_
  rw [t.extent_allUpTo, t.extent_allUpTo, hlimit, hnone, List.map_filterMap]
  exact List.filterMap_congr fun e _ => e.finding?_every_some hk

theorem result_searchFor_allUpTo {t : Target}
    (hfault : env.targetFault? (t.allUpTo flag?) = env'.targetFault? (t.allUpTo flag?'))
    (hregion : env.region t = env'.region t) (name : String) (read : CommandStep Signature) :
    (env.searchFor c name read (t.allUpTo flag?)).result =
      (env'.searchFor c' name read (t.allUpTo flag?')).result.map (Report.cut k.toNat) := by
  refine Logged.result_bind_map_congr (by rw [hfault]) fun _ => ?_
  refine Logged.result_bind_map_congr rfl fun s => ?_
  exact result_searchOne_allUpTo hlimit hnone hregion name s

theorem result_searchDatabase_allUpTo (hk : k ≠ 0)
    (hlenient : c.lenientDatabase = c'.lenientDatabase) {path : String} {t : Target}
    (hpath : env.files path = env'.files path)
    (hfault : env.targetFault? (t.allUpTo flag?) = env'.targetFault? (t.allUpTo flag?'))
    (hregion : env.region t = env'.region t) (lenient sequential : Bool) :
    (env.searchDatabase c path lenient sequential (t.allUpTo flag?)).result =
      (env'.searchDatabase c' path lenient sequential (t.allUpTo flag?')).result.map
        (Report.cut k.toNat) := by
  refine Logged.result_bind_map_congr (by rw [databaseFault?_congr hpath]) fun _ => ?_
  refine Logged.result_bind_map_congr (by rw [hfault]) fun _ => ?_
  refine Logged.result_bind_map_congr (by rw [hlenient, loadDatabase_congr hpath]) fun d => ?_
  exact result_searchAll_allUpTo hlimit hnone hk hregion d sequential

/-- What a limit does to a command: it comes to what it comes to without a limit, cut off. -/
theorem result_yield_allUpTo {a : Arguments} (h : AlikeButLimit a env env')
    (hc : c.withoutLimit = c'.withoutLimit) (hk : k ≠ 0) (hflag : flag? ≠ some 0) :
    (env.yield c (a.command.mapTarget (Target.allUpTo flag?))).result =
      (env'.yield c' (a.command.mapTarget (Target.allUpTo flag?'))).result.map
        (Yield.cut k.toNat) := by
  obtain ⟨-, -, -, -, hlenient⟩ := Config.of_withoutLimit hc
  -- The second command line says no limit at all.
  have hflag' : flag?' ≠ some 0 := by
    rw [(Option.or_eq_none_iff.mp hnone).1]
    exact nofun
  have htarget := fun t ht => h.target hflag hflag' (t := t) ht
  cases hcommand : a.command with
  | find signature offset t =>
    obtain ⟨hfault, hregion⟩ := htarget t (by rw [hcommand]; rfl)
    exact result_report_cut (result_searchFor_allUpTo hlimit hnone hfault hregion _ _)
  | masked bytes mask offset t =>
    obtain ⟨hfault, hregion⟩ := htarget t (by rw [hcommand]; rfl)
    exact result_report_cut (result_searchFor_allUpTo hlimit hnone hfault hregion _ _)
  | database path lenient sequential t =>
    obtain ⟨hfault, hregion⟩ := htarget t (by rw [hcommand]; rfl)
    have hpath : env.files path = env'.files path :=
      h.files path (by rw [hcommand]; exact List.mem_cons_self)
    exact result_report_cut (result_searchDatabase_allUpTo hlimit hnone hk hlenient hpath hfault
      hregion lenient sequential)
  | inspect signature => exact Logged.result_bind_map_congr rfl fun _ => rfl

end Cut

/-! ## 4. Whole commands -/

section Reports

variable {env : Environment} {a : Arguments} {c : Config} {r : Report}

theorem execute_of_yield (hconfig : env.config a = .ok c)
    (hyield : (env.yield c a.command).result = .ok (.report r)) :
    env.report? a = some r ∧ (env.execute a).stdout = c.render (env.color && c.color) r ∧
      (env.execute a).fault = none := by
  have hreport : env.report? a = some r := by
    rw [report?, hconfig]
    show (env.yield c a.command).result.toOption >>= _ = _
    rw [hyield]
    rfl
  have hrun : (env.run a).result = .ok (c.render (env.color && c.color) r) := by
    rw [result_run, hconfig]
    show (env.perform c a.command).result = _
    rw [result_perform, hyield]
    rfl
  exact ⟨hreport, execute_of_ok hrun⟩

/-- A command that searches comes to a report, and to nothing else. -/
theorem exists_report_of_yield {command : Command} (ht : command.target?.isSome) {y : Yield}
    (h : (env.yield c command).result = .ok y) : ∃ r, y = .report r := by
  cases command with
  | inspect signature => cases ht
  | _ =>
    obtain ⟨r, -, ⟨⟩⟩ := Logged.result_bind_eq_ok.mp h
    exact ⟨r, rfl⟩

/-- A command that searches and has no fault comes to a report. -/
theorem exists_yield_of_fault_eq_none (ht : a.command.target?.isSome)
    (h : (env.execute a).fault = none) :
    ∃ c r, env.config a = .ok c ∧ (env.yield c a.command).result = .ok (.report r) := by
  cases hrun : (env.run a).result with
  | error fault =>
    rw [(execute_of_error hrun).2] at h
    cases h
  | ok text =>
    obtain ⟨c, hconfig, hperform⟩ := Result.bind_eq_ok.mp (result_run env a ▸ hrun)
    obtain ⟨y, hyield, -⟩ := Logged.result_bind_eq_ok.mp hperform
    obtain ⟨r, rfl⟩ := exists_report_of_yield ht hyield
    exact ⟨c, r, hconfig, hyield⟩

end Reports

section Limits

variable {env env' : Environment} {a : Arguments} {flag? flag?' : Option UInt64}
variable (h : AlikeButLimit a env env')
variable (hlimit : env.limit? a ≠ some 0) (hlimit' : env'.limit? a ≠ some 0)
variable (hflag : flag? ≠ some 0)
include h hlimit hlimit' hflag

theorem execute_eq_of_limit_eq (hflag' : flag?' ≠ some 0)
    (heq : flag?.or (env.limit? a) = flag?'.or (env'.limit? a)) :
    env.execute (a.allUpTo flag?) = env'.execute (a.allUpTo flag?') := by
  obtain ⟨fault, hc, hc'⟩ | ⟨c, c', hc, hc', hsame⟩ := config_cases h hlimit hlimit'
  · have hconfig : env.config (a.allUpTo flag?) = .error fault := hc
    have hconfig' : env'.config (a.allUpTo flag?') = .error fault := hc'
    simp only [execute, run_of_error hconfig, run_of_error hconfig', hconfig, hconfig']
  · have hconfig : env.config (a.allUpTo flag?) = .ok c := hc
    have hconfig' : env'.config (a.allUpTo flag?') = .ok c' := hc'
    rw [← maxMatches_of_config_eq_ok hc, ← maxMatches_of_config_eq_ok hc'] at heq
    have hrun : env.run (a.allUpTo flag?) = env'.run (a.allUpTo flag?') := by
      rw [run_of_ok hconfig, run_of_ok hconfig']
      exact perform_allUpTo hsame heq h hflag hflag'
    have hshown : (a.allUpTo flag?).shownLevel c = (a.allUpTo flag?').shownLevel c' := by
      obtain ⟨-, -, -, hlevel, -⟩ := Config.of_withoutLimit hsame
      exact congrArg (fun level => (LogLevel.ofText level).raise a.verbosity.toNat) hlevel
    simp only [execute, hconfig, hconfig', hrun, hshown]

/-- The second environment has no limit, and there is none on the second command line. -/
theorem report?_allUpTo {k : UInt64} (hk : flag?.or (env.limit? a) = some k)
    (hnone : flag?'.or (env'.limit? a) = none) (ht : a.command.target?.isSome)
    (hfault : (env'.execute (a.allUpTo flag?')).fault = none) :
    (env.execute (a.allUpTo flag?)).fault = none ∧
      ∃ c r, env'.config a = .ok c ∧ env'.report? (a.allUpTo flag?') = some r ∧
        (env'.execute (a.allUpTo flag?')).stdout = c.render (env'.color && c.color) r ∧
        env.report? (a.allUpTo flag?) = some (r.cut k.toNat) ∧
        (env.execute (a.allUpTo flag?)).stdout = c.render (env'.color && c.color) (r.cut k.toNat) := by
  have ht' : (a.allUpTo flag?').command.target?.isSome := by
    show (a.command.mapTarget _).target?.isSome = true
    rw [Command.target?_mapTarget, Option.isSome_map]
    exact ht
  obtain ⟨c', r, hc', hyield'⟩ := exists_yield_of_fault_eq_none ht' hfault
  obtain ⟨hreport', hstdout', -⟩ := execute_of_yield hc' hyield'
  obtain ⟨fault, -, hother⟩ | ⟨c, other, hc, hother, hsame⟩ := config_cases h hlimit hlimit'
  · cases hc'.symm.trans hother
  obtain rfl : c' = other := Except.ok.inj (hc'.symm.trans hother)
  -- No place that is asked for the limit says zero.
  have hpos : k ≠ 0 := by
    rintro rfl
    exact (Option.or_eq_some_iff.mp hk).elim hflag fun hboth => hlimit hboth.2
  rw [← maxMatches_of_config_eq_ok hc] at hk
  rw [← maxMatches_of_config_eq_ok hother] at hnone
  have hyield : (env.yield c (a.allUpTo flag?).command).result = .ok (.report (r.cut k.toNat)) := by
    refine (result_yield_allUpTo hk hnone h hsame hpos hflag).trans ?_
    exact congrArg (Except.map (Yield.cut k.toNat)) hyield'
  obtain ⟨hreport, hstdout, hnoFault⟩ := execute_of_yield (a := a.allUpTo flag?) hc hyield
  refine ⟨hnoFault, c', r, hc', hreport', hstdout', hreport, ?_⟩
  obtain ⟨-, hformat, hcolor, -, -⟩ := Config.of_withoutLimit hsame
  rw [hstdout, Config.render_congr hformat, h.color, hcolor]

end Limits

/-- The limit of a command that wants all matches is that of the command line, or else that of the
configuration. Wherever it is said, and whatever is said where it does not count, the outcome is the
same. A command with a limit succeeds where it does without one, and its report is cut off. -/
theorem execute_allUpTo {env env' : Environment} {a : Arguments} {flag? flag?' : Option UInt64}
    (h : AlikeButLimit a env env')
    (hflag : flag? ≠ some 0 ∧ flag?' ≠ some 0)
    (hlimit : env.limit? a ≠ some 0 ∧ env'.limit? a ≠ some 0) :
    (flag?.or (env.limit? a) = flag?'.or (env'.limit? a) →
      env.execute (a.allUpTo flag?) = env'.execute (a.allUpTo flag?')) ∧
    (∀ k, flag?.or (env.limit? a) = some k → flag?'.or (env'.limit? a) = none →
      a.command.target?.isSome → (env'.execute (a.allUpTo flag?')).fault = none →
        (env.execute (a.allUpTo flag?)).fault = none ∧
        ∃ c r, env'.config a = .ok c ∧ env'.report? (a.allUpTo flag?') = some r ∧
          (env'.execute (a.allUpTo flag?')).stdout = c.render (env'.color && c.color) r ∧
          env.report? (a.allUpTo flag?) = some (r.cut k.toNat) ∧
          (env.execute (a.allUpTo flag?)).stdout =
            c.render (env'.color && c.color) (r.cut k.toNat)) := by
  obtain ⟨hflag, hflag'⟩ := hflag
  obtain ⟨hlimit, hlimit'⟩ := hlimit
  constructor
  · exact execute_eq_of_limit_eq h hlimit hlimit' hflag hflag'
  · intro k hk hnone ht hfault
    exact report?_allUpTo h hlimit hlimit' hflag hk hnone ht hfault

/-- Two entries of one name, and a limit in the configuration that cuts off the first of them. The same
limit on the command line comes to the same. -/
theorem execute_allUpTo_A_A :
    let env : String → Environment := fun config =>
      { files := fun path =>
          if path = "a.db" then .ok "[A]\nsignature = 90\n[A]\nsignature = 41 ??\n".toUTF8.data.toList
          else if path = "c.json" then .ok config.toUTF8.data.toList
          else .error .notFound
        stdin := [0x90, 0x90, 0x41, 0x90] }
    let limited := env "\x7b\"max_matches\": 2\x7d"
    let unlimited := env "\x7b\x7d"
    let a : Arguments := { config := some "c.json", command := .database "a.db" false false {} }
    AlikeButLimit a limited unlimited ∧
      limited.execute (a.allUpTo none) = unlimited.execute (a.allUpTo (some 2)) ∧
      (limited.execute (a.allUpTo none)).fault = none ∧
      limited.report? (a.allUpTo none) = (unlimited.report? (a.allUpTo none)).map (Report.cut 2) ∧
      (limited.report? (a.allUpTo none)).map (·.hitCounts.entries) = some [("A", 3)] := by
  intro env limited unlimited a
  have hsettings : limited.settings? a = some { maxMatches := some 2 } ∧
      unlimited.settings? a = some {} := by
    decide +kernel
  have halike : AlikeButLimit a limited unlimited :=
    { stdin := rfl
      color := rfl
      files := by
        intro path hpath
        obtain rfl : path = "a.db" := List.mem_singleton.mp hpath
        rfl
      config := .inr ⟨_, _, hsettings.1, hsettings.2, rfl⟩ }
  have hlimit : limited.limit? a = some 2 ∧ unlimited.limit? a = none := by
    rw [limit?, limit?, hsettings.1, hsettings.2]
    exact ⟨rfl, rfl⟩
  have hdone : (unlimited.execute (a.allUpTo none)).fault = none := by decide +kernel
  have hnonzero : limited.limit? a ≠ some 0 ∧ unlimited.limit? a ≠ some 0 := by
    rw [hlimit.1, hlimit.2]
    exact ⟨by decide, nofun⟩
  have hflag : (none : Option UInt64) ≠ some 0 ∧ (some 2 : Option UInt64) ≠ some 0 :=
    ⟨nofun, by decide⟩
  obtain ⟨hsame, -⟩ := execute_allUpTo halike hflag hnonzero
  obtain ⟨-, hcut⟩ := execute_allUpTo halike ⟨hflag.1, hflag.1⟩ hnonzero
  obtain ⟨hfault, c, r, -, hreport', -, hreport, -⟩ := hcut 2 (by rw [hlimit.1]; rfl)
    (by rw [hlimit.2]; rfl) rfl hdone
  refine ⟨halike, hsame (by rw [hlimit.1, hlimit.2]; rfl), hfault, ?_, by decide +kernel⟩
  rw [hreport, hreport']
  rfl

/-- Neither condition of `execute_allUpTo` can be left out. A limit of zero in the configuration is a
fault even where the command line has a limit that counts in its place. And in a configuration file
that is searched itself, a limit changes what is found. -/
theorem execute_allUpTo_needs :
    let env : String → Environment := fun config =>
      { files := fun path =>
          if path = "c.json" then .ok config.toUTF8.data.toList else .error .notFound
        stdin := [0x90] }
    let zero := env "\x7b\"max_matches\": 0\x7d"
    let one := env "\x7b\"max_matches\": 1\x7d"
    let unlimited := env "\x7b\x7d"
    let a : Arguments := { config := some "c.json", command := .find "90" 0 {} }
    let searched : Arguments :=
      { config := some "c.json", command := .find "7D" 0 { input := some "c.json" } }
    (zero.settings? a = some { maxMatches := some 0 } ∧ unlimited.settings? a = some {} ∧
      (some 3).or (zero.limit? a) = some 3 ∧
      (unlimited.execute (a.allUpTo none)).fault = none ∧
      (zero.execute (a.allUpTo (some 3))).fault ≠ none) ∧
    (one.settings? searched = some { maxMatches := some 1 } ∧ unlimited.settings? searched = some {} ∧
      (unlimited.execute (searched.allUpTo none)).fault = none ∧
      (one.report? (searched.allUpTo none)).map Report.findings ≠
        (unlimited.report? (searched.allUpTo none)).map fun r => r.findings.map (Finding.cut 1)) := by
  decide +kernel

end Environment

end ByteScan
