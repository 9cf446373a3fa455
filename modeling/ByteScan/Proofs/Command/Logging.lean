import ByteScan.Proofs.Command.Searching
import ByteScan.Proofs.Config.Alike

/-!
# Logging and parallel search do not bear on results

How much of the log is shown, and whether the entries of a database are searched for one after
another, is said in several places: by a count and a name on the command line, by a switch of one
command, and by two settings of the configuration file. Two command lines that differ in nothing else
write the same and fail alike, and so they do when the configuration file differs in nothing else.

There is one way in which the two settings do come into the results: a configuration file may itself
be the file that is searched, or the database. So the files that a command reads for these have to be
the same.

* `Command.Alike`, `Arguments.Alike`: command lines that differ in logging and in `sequential` only.
* `Environment.AlikeFor`: environments that differ for a command line in the configuration file only.

Results:
1. `Environment.endAlike_config`: configurations of such command lines.
2. `Environment.result_yield_alike`, `Environment.result_perform_alike`: commands under such
   configurations.
3. `Environment.execute_alike`: whole commands. `Environment.stdout_ne_of_searched_config`: a
   configuration file that is searched.
-/

namespace ByteScan

/-! ## Definitions -/

/-- The commands differ at most in whether entries are to be searched for one after another. -/
inductive Command.Alike : Command → Command → Prop
  | same (command : Command) : Alike command command
  | database (path : String) (lenient sequential sequential' : Bool) (target : Target) :
      Alike (.database path lenient sequential target) (.database path lenient sequential' target)

/-- The command lines differ at most in how much of the log is shown, and in `sequential`. A log level
that they differ in has a name, where there is one. -/
structure Arguments.Alike (a a' : Arguments) : Prop where
  logLevel : a.logLevel = a'.logLevel ∨
    (∀ level ∈ a.logLevel, LogLevel.IsName level) ∧ ∀ level ∈ a'.logLevel, LogLevel.IsName level
  config : a.config = a'.config
  noColor : a.noColor = a'.noColor
  json : a.json = a'.json
  command : a.command.Alike a'.command

/-- For this command line the environments differ at most in the two settings of the configuration
file. -/
structure Environment.AlikeFor (a : Arguments) (env env' : Environment) : Prop where
  stdin : env.stdin = env'.stdin
  color : env.color = env'.color
  files : ∀ path ∈ a.command.paths, env.files path = env'.files path
  config : ∀ path ∈ a.config, env.files.text path = env'.files.text path ∨
    ∃ text text', env.files.text path = .ok text ∧ env'.files.text path = .ok text' ∧
      Config.Edited text text'

open Config (EndAlike endAlike_validate endAlike_read)

/-! ## 1. Configurations -/

theorem LogLevel.Alike.isName {level level' : String} (h : LogLevel.Alike level level')
    (hname : LogLevel.IsName level) : LogLevel.IsName level' := by
  cases h with
  | inl heq => exact heq ▸ hname
  | inr hnames => exact hnames.2

namespace Environment

variable {env : Environment} {a : Arguments}

/-- A configuration has a log level with a name before the command line puts another in its place. -/
theorem isName_of_baseConfig {c : Config} (h : env.baseConfig a = .ok c) :
    LogLevel.IsName c.logLevel := by
  unfold baseConfig at h
  cases hpath : a.config with
  | none =>
    rw [hpath] at h
    obtain rfl : {} = c := Except.ok.inj h
    decide +kernel
  | some path =>
    rw [hpath] at h
    obtain ⟨text, -, hread⟩ := loadConfig_eq_ok.mp h
    exact (Config.fault?_eq_none.mp (Config.fault?_of_read hread)).2

end Environment

section Settings

variable {a a' : Arguments} (h : a.Alike a')
include h

theorem Arguments.Alike.override {c c' : Config} (hc : c.Alike c')
    (hname : LogLevel.IsName c.logLevel) : (a.override c).Alike (a'.override c') := by
  refine ⟨hc.maxMatches, ?_, ?_, ?_, hc.lenientDatabase⟩
  · show (if a.json then _ else _) = (if a'.json then _ else _)
    rw [h.json, hc.outputFormat]
  · show (c.color && !a.noColor) = (c'.color && !a'.noColor)
    rw [h.noColor, hc.color]
  · show LogLevel.Alike (a.logLevel.getD c.logLevel) (a'.logLevel.getD c'.logLevel)
    cases h.logLevel with
    | inl heq =>
      rw [← heq]
      cases a.logLevel with
      | none => exact hc.logLevel
      | some level => exact .inl rfl
    | inr hnames =>
      exact .inr ⟨LogLevel.isName_getD hnames.1 hname,
        LogLevel.isName_getD hnames.2 (hc.logLevel.isName hname)⟩

end Settings

namespace Environment

variable {env env' : Environment} {a a' : Arguments} (henv : AlikeFor a env env') (h : a.Alike a')
include henv h

theorem endAlike_baseConfig : EndAlike (env.baseConfig a) (env'.baseConfig a') := by
  unfold baseConfig
  rw [← h.config]
  cases hpath : a.config with
  | none => exact .refl _
  | some path =>
    show EndAlike (env.loadConfig path) (env'.loadConfig path)
    unfold loadConfig
    cases henv.config path hpath with
    | inl heq =>
      rw [heq]
      exact .refl _
    | inr hedited =>
      obtain ⟨text, text', htext, htext', hedited⟩ := hedited
      rw [htext, htext']
      exact (endAlike_read hedited).mapError _

theorem endAlike_config : EndAlike (env.config a) (env'.config a') := by
  have hbase := endAlike_baseConfig henv h
  rw [config_eq, config_eq]
  generalize env'.baseConfig a' = base' at hbase ⊢
  cases hc : env.baseConfig a with
  | error fault =>
    rw [hc] at hbase
    cases hbase with
    | error _ => exact .error fault
  | ok c =>
    rw [hc] at hbase
    cases hbase with
    | ok halike =>
      refine (endAlike_validate ?_).mapError _
      exact h.override halike (isName_of_baseConfig hc)

end Environment

/-! ## 2. Commands -/

namespace Environment

variable {env env' : Environment}

section Perform

variable {c c' : Config} (hc : c.Alike c')
include hc

theorem write_alike (hcolor : env.color = env'.color) :
    c.write (env.color && c.color) = c'.write (env'.color && c'.color) := by
  rw [hcolor, hc.color, Config.write_congr hc.outputFormat]

theorem searchOne_alike {t : Target} (hregion : env.region t = env'.region t) (name : String)
    (s : Signature) : env.searchOne c name s t = env'.searchOne c' name s t := by
  unfold searchOne
  rw [hregion, hc.maxMatches]

/-- The findings for a database depend neither on `parallel` nor on `sequential`. -/
theorem result_searchAll_alike {t : Target} (hregion : env.region t = env'.region t) (d : Database)
    (sequential sequential' : Bool) :
    (env.searchAll c d sequential t).result = (env'.searchAll c' d sequential' t).result := by
  rw [result_searchAll, result_searchAll, hregion, hc.maxMatches]

variable (hstdin : env.stdin = env'.stdin)
include hstdin

theorem searchFor_alike {t : Target} (hfiles : ∀ path ∈ t.input, env.files path = env'.files path)
    (name : String) (read : CommandStep Signature) :
    env.searchFor c name read t = env'.searchFor c' name read t := by
  have hsearch := searchOne_alike hc (region_congr hstdin hfiles) name
  unfold searchFor
  simp only [targetFault?_congr hfiles, hsearch]

theorem result_searchDatabase_alike {path : String} {t : Target}
    (hfiles : ∀ file ∈ path :: t.input.toList, env.files file = env'.files file)
    (lenient sequential sequential' : Bool) :
    (env.searchDatabase c path lenient sequential t).result =
      (env'.searchDatabase c' path lenient sequential' t).result := by
  obtain ⟨hpath, hinput⟩ := List.forall_mem_cons.mp hfiles
  have hinput : ∀ file ∈ t.input, env.files file = env'.files file :=
    fun file hfile => hinput file (Option.mem_toList.mpr hfile)
  refine Logged.result_bind_congr (by rw [databaseFault?_congr hpath]) fun _ => ?_
  refine Logged.result_bind_congr (by rw [targetFault?_congr hinput]) fun _ => ?_
  rw [hc.lenientDatabase]
  refine Logged.result_bind_congr (by rw [loadDatabase_congr hpath]) fun d => ?_
  -- The database is the same, and only how it is searched may differ.
  exact result_searchAll_alike hc (region_congr hstdin hinput) d sequential sequential'

theorem result_yield_alike {command command' : Command} (hcommand : command.Alike command')
    (hfiles : ∀ path ∈ command.paths, env.files path = env'.files path) :
    (env.yield c command).result = (env'.yield c' command').result := by
  cases hcommand with
  | same =>
    cases command with
    | find signature offset t =>
      have hinput : ∀ path ∈ t.input, env.files path = env'.files path :=
        fun path hpath => hfiles path (Option.mem_toList.mpr hpath)
      rw [yield, yield, searchFor_alike hc hstdin hinput]
    | masked bytes mask offset t =>
      have hinput : ∀ path ∈ t.input, env.files path = env'.files path :=
        fun path hpath => hfiles path (Option.mem_toList.mpr hpath)
      rw [yield, yield, searchFor_alike hc hstdin hinput]
    | database path lenient sequential t =>
      exact Logged.result_bind_congr
        (result_searchDatabase_alike hc hstdin hfiles lenient sequential sequential) fun _ => rfl
    | inspect signature => rfl
  | database path lenient sequential sequential' t =>
    exact Logged.result_bind_congr
      (result_searchDatabase_alike hc hstdin hfiles lenient sequential sequential') fun _ => rfl

theorem result_perform_alike (hcolor : env.color = env'.color) {command command' : Command}
    (hcommand : command.Alike command')
    (hfiles : ∀ path ∈ command.paths, env.files path = env'.files path) :
    (env.perform c command).result = (env'.perform c' command').result := by
  rw [result_perform, result_perform, result_yield_alike hc hstdin hcommand hfiles,
    write_alike hc hcolor]

end Perform

/-! ## 3. Whole commands -/

/-- Command lines that differ in nothing but how much of the log is shown and whether entries are
searched for one after another write the same, fail with the same fault and end with the same
status. The configuration file may differ in `parallel` and in the name of the log level too, unless
it is also the file that is searched or the database. -/
theorem execute_alike {a a' : Arguments} (ha : a.Alike a') (henv : AlikeFor a env env') :
    (env.execute a).stdout = (env'.execute a').stdout ∧
      (env.execute a).fault = (env'.execute a').fault ∧
      (env.execute a).exitCode = (env'.execute a').exitCode := by
  refine execute_congr ?_
  rw [result_run, result_run]
  have hconfig := endAlike_config henv ha
  generalize env.config a = config at hconfig ⊢
  generalize env'.config a' = config' at hconfig ⊢
  cases hconfig with
  | error fault => rfl
  | ok hc => exact result_perform_alike hc henv.stdin henv.color ha.command henv.files

/-- Everything is changed at once that may be: how much of the log is shown, by a count, by a name and
by a setting, and how the entries of a database are searched for, by a switch and by a setting. -/
theorem execute_alike_90 :
    let env : String → Environment := fun config =>
      { files := fun path =>
          if path = "a.db" then .ok "[A]\nsignature = 90 ??\n".toUTF8.data.toList
          else if path = "c.json" then .ok config.toUTF8.data.toList
          else .error .notFound
        stdin := [0x90, 0x41] }
    let quiet := env "\x7b\"parallel\": true, \"log_level\": \"error\"\x7d"
    let loud := env "\x7b\"parallel\": false, \"log_level\": \"TRACE\"\x7d"
    let a : Arguments := { config := some "c.json", command := .database "a.db" false false {} }
    let a' : Arguments :=
      { logLevel := some "debug", verbosity := 2, config := some "c.json"
        command := .database "a.db" false true {} }
    (quiet.execute a).stdout = (loud.execute a').stdout ∧ (loud.execute a').fault = none := by
  intro env quiet loud a a'
  have hlevel : ∀ level ∈ a'.logLevel, LogLevel.IsName level := by
    intro level hlevel
    obtain rfl : "debug" = level := Option.some.inj hlevel
    decide +kernel
  have ha : a.Alike a' :=
    { logLevel := .inr ⟨(fun _ hnone => nomatch hnone), hlevel⟩
      config := rfl
      noColor := rfl
      json := rfl
      command := .database "a.db" false false true {} }
  have hconfig : (Json.read? "\x7b\"parallel\": true, \"log_level\": \"error\"\x7d" >>=
        Config.ofJson?) = some { logLevel := "error" } ∧
      (Json.read? "\x7b\"parallel\": false, \"log_level\": \"TRACE\"\x7d" >>=
        Config.ofJson?) = some { parallel := false, logLevel := "TRACE" } := by
    decide +kernel
  have hnames : LogLevel.IsName "error" ∧ LogLevel.IsName "TRACE" := by decide +kernel
  have henv : AlikeFor a quiet loud :=
    { stdin := rfl
      color := rfl
      files := by
        intro path hpath
        obtain rfl : path = "a.db" := List.mem_singleton.mp hpath
        rfl
      config := by
        intro path hpath
        obtain rfl : "c.json" = path := Option.some.inj hpath
        exact .inr ⟨_, _, FileSystem.text_of_toUTF8 rfl, FileSystem.text_of_toUTF8 rfl,
          .rewritten hconfig.1 hconfig.2 ⟨rfl, rfl, rfl, .inr hnames, rfl⟩⟩ }
  obtain ⟨hstdout, hfault, -⟩ := execute_alike ha henv
  have hdone : (quiet.execute a).fault = none := by decide +kernel
  exact ⟨hstdout, hfault.symm.trans hdone⟩

/-- A configuration file that is searched itself: the value of `parallel` is found in it or not. -/
theorem stdout_ne_of_searched_config :
    let env : String → Environment := fun config =>
      { files := fun path =>
          if path = "c.json" then .ok config.toUTF8.data.toList else .error .notFound }
    let a : Arguments :=
      { config := some "c.json", command := .find "74 72 75 65" 0 { input := some "c.json" } }
    Config.Edited "\x7b\"parallel\": true\x7d" "\x7b\"parallel\": false\x7d" ∧
      ((env "\x7b\"parallel\": true\x7d").execute a).stdout ≠
        ((env "\x7b\"parallel\": false\x7d").execute a).stdout := by
  intro env a
  constructor
  · have hread : ∀ b : Bool, Json.read? s!"\x7b\"parallel\": {b}\x7d" =
        some (.object [(some "parallel", .ofBool b)]) := by
      intro b
      cases b <;> cbv
    exact .retuned (hread true) (hread false)
      (.object (.cons ⟨rfl, .inr ⟨.parallel, rfl, .parallel true false⟩⟩ .nil))
  · decide +kernel

end Environment

end ByteScan
