import ByteScan.Command.Run
import ByteScan.Proofs.Config.Validity

/-!
# Running a command

What is known of a command from the step that carries it out. The configuration that it has come to
is that of the file, or the default, with what the command line changes in it, and has passed the
check. What is written, the fault and the status are read off the result of the step.

* `Environment.baseConfig`: the configuration before the command line changes it.
* `Environment.settings?`: the configuration before it is checked.

Results:
1. `Environment.loadConfig_eq_ok`, `Environment.config_eq_ok`: where a configuration comes from.
2. `Environment.execute_of_ok`, `Environment.execute_of_error`, `Environment.execute_congr`: what can
   be seen of a command.
3. `FileSystem.text_of_toUTF8`, `Config.write_congr`: files with text in them, and what is written.
4. `Environment.targetFault?_congr`, `Environment.region_congr` and the like: environments that have
   the files that a step reads in common.
-/

namespace ByteScan

/-! ## 1. Where a configuration comes from -/

namespace Environment

variable {env : Environment} {a : Arguments} {c : Config}

theorem loadConfig_eq_ok {path : String} :
    env.loadConfig path = .ok c ↔
      ∃ text, env.files.text path = .ok text ∧ Config.read text = .ok c := by
  unfold loadConfig
  simp only [Result.bind_eq_ok, Result.mapError_eq_ok]

/-- The configuration in the file that the command line names, or else the default. -/
def baseConfig (env : Environment) (a : Arguments) : Except CommandError Config :=
  (a.config.map env.loadConfig).getD (.ok {})

/-- The configuration in a file, whether or not it can be used. -/
def configIn? (env : Environment) (path : String) : Option Config :=
  (env.files.text path).toOption >>= fun text => Json.read? text >>= Config.ofJson?

/-- The configuration in the file that the command line names, or else the default. Whether it can be
used has not been looked at. -/
def settings? (env : Environment) (a : Arguments) : Option Config :=
  (a.config.map env.configIn?).getD (some {})

theorem settings?_of_baseConfig {c : Config} (h : env.baseConfig a = .ok c) :
    env.settings? a = some c := by
  unfold baseConfig at h
  unfold settings?
  cases hpath : a.config with
  | none =>
    rw [hpath] at h
    exact congrArg some (Except.ok.inj h)
  | some path =>
    rw [hpath] at h
    obtain ⟨text, htext, hread⟩ := loadConfig_eq_ok.mp h
    show env.configIn? path = some c
    unfold configIn?
    rw [htext]
    exact (Config.read_eq_ok.mp hread).1

/-- The check that a configuration has to pass. Which fault it ends in does not depend on the
environment. -/
theorem baseConfig_of_settings? {c : Config} (h : env.settings? a = some c) :
    env.baseConfig a =
      c.validate.mapError fun fault => .configFile (a.config.getD "") (.invalid fault) := by
  unfold settings? at h
  unfold baseConfig
  cases hpath : a.config with
  | none =>
    rw [hpath] at h
    obtain rfl := Option.some.inj h
    have hvalid : ({} : Config).fault? = none := by decide +kernel
    rw [Config.validate_eq_ok.mpr ⟨hvalid, rfl⟩]
    rfl
  | some path =>
    rw [hpath] at h
    obtain ⟨text, htext, hdocument⟩ := Option.bind_eq_some_iff.mp h
    show env.loadConfig path = _
    rw [loadConfig, Result.toOption_eq_some.mp htext]
    show (Config.read text).mapError _ = _
    rw [Config.read_of_ofJson? hdocument]
    cases c.validate <;> rfl

theorem config_eq (env : Environment) (a : Arguments) : env.config a =
    env.baseConfig a >>= fun base => (a.override base).validate.mapError .config :=
  rfl

theorem config_eq_ok :
    env.config a = .ok c ↔
      ∃ base, env.baseConfig a = .ok base ∧ (a.override base).fault? = none ∧
        a.override base = c := by
  simp only [config_eq, Result.bind_eq_ok, Result.mapError_eq_ok, Config.validate_eq_ok]

theorem maxMatches_of_config (h : env.config a = .ok c) : c.maxMatches ≠ some 0 := by
  obtain ⟨base, -, hfault, rfl⟩ := config_eq_ok.mp h
  exact (Config.fault?_eq_none.mp hfault).1

/-! ## 2. What can be seen of a command -/

theorem result_run (env : Environment) (a : Arguments) :
    (env.run a).result = env.config a >>= fun c => (env.perform c a.command).result :=
  Logged.result_bind _ _

/-- The configuration does not depend on the command. -/
theorem result_run_with (env : Environment) (a : Arguments) (command : Command) :
    (env.run { a with command }).result =
      env.config a >>= fun c => (env.perform c command).result :=
  Logged.result_bind _ _

/-- Writing is all that is left to do with what a command comes to. -/
theorem result_perform (env : Environment) (c : Config) (command : Command) :
    (env.perform c command).result =
      (env.yield c command).result.map (c.write (env.color && c.color)) :=
  Logged.result_bind_pure _ _

theorem run_of_ok (h : env.config a = .ok c) : env.run a = env.perform c a.command := by
  unfold run
  rw [h]
  rfl

theorem run_of_error {fault : CommandError} (h : env.config a = .error fault) :
    env.run a = .fail fault := by
  unfold run
  rw [h]
  rfl

theorem execute_of_ok {text : String} (h : (env.run a).result = .ok text) :
    (env.execute a).stdout = text ∧ (env.execute a).fault = none := by
  simp [execute, h]

theorem execute_of_error {fault : CommandError} (h : (env.run a).result = .error fault) :
    (env.execute a).stdout = "" ∧ (env.execute a).fault = some fault := by
  simp [execute, h]

theorem execute_congr {env' : Environment} {a' : Arguments}
    (h : (env.run a).result = (env'.run a').result) :
    (env.execute a).stdout = (env'.execute a').stdout ∧
      (env.execute a).fault = (env'.execute a').fault ∧
      (env.execute a).exitCode = (env'.execute a').exitCode := by
  have hsame : (env.execute a).stdout = (env'.execute a').stdout ∧
      (env.execute a).fault = (env'.execute a').fault := by
    cases hrun : (env'.run a').result with
    | ok text =>
      obtain ⟨hstdout, hfault⟩ := execute_of_ok (h.trans hrun)
      obtain ⟨hstdout', hfault'⟩ := execute_of_ok hrun
      exact ⟨hstdout.trans hstdout'.symm, hfault.trans hfault'.symm⟩
    | error fault =>
      obtain ⟨hstdout, hfault⟩ := execute_of_error (h.trans hrun)
      obtain ⟨hstdout', hfault'⟩ := execute_of_error hrun
      exact ⟨hstdout.trans hstdout'.symm, hfault.trans hfault'.symm⟩
  refine ⟨hsame.1, hsame.2, ?_⟩
  rw [Outcome.exitCode, Outcome.exitCode, hsame.2]

end Environment

/-! ## 3. Files and formats -/

section Formats

variable {c c' : Config} (h : c.outputFormat = c'.outputFormat)
include h

theorem Config.render_congr : c.render = c'.render := by
  unfold render
  rw [h]

theorem Config.renderSummary_congr : c.renderSummary = c'.renderSummary := by
  unfold renderSummary
  rw [h]

theorem Config.write_congr : c.write = c'.write := by
  funext color y
  cases y with
  | report r => exact congrFun (congrFun (render_congr h) color) r
  | summary s => exact congrFun (congrFun (renderSummary_congr h) color) s

end Formats

theorem FileSystem.text_of_toUTF8 {files : FileSystem} {path text : String}
    (h : files path = .ok text.toUTF8.data.toList) : files.text path = .ok text := by
  have hbytes : (⟨text.toUTF8.data.toList.toArray⟩ : ByteArray) = text.toUTF8 := by
    rw [Array.toArray_toList]
  have hvalid : String.fromUTF8? text.toUTF8 = some text := by
    rw [String.fromUTF8?, String.toUTF8_eq_toByteArray, dif_pos text.isValidUTF8]
    rfl
  unfold FileSystem.text
  simp only [h, bind, Except.bind, hbytes, hvalid]
  rfl

theorem FileSystem.has_of_ok {files : FileSystem} {path : String} {bytes : List UInt8}
    (h : files path = .ok bytes) : files.has path = true := by
  rw [has, h]

/-! ## 4. Environments with the same files -/

namespace Environment

section Congr

variable {env env' : Environment}

theorem targetFault?_congr {t : Target}
    (hfiles : ∀ path ∈ t.input, env.files path = env'.files path) :
    env.targetFault? t = env'.targetFault? t := by
  unfold targetFault?
  cases hinput : t.input with
  | none => rfl
  | some path =>
    have hhas : env.files.has path = env'.files.has path := by
      unfold FileSystem.has
      rw [hfiles path hinput]
    simp only [hhas]

theorem region_congr {t : Target} (hstdin : env.stdin = env'.stdin)
    (hfiles : ∀ path ∈ t.input, env.files path = env'.files path) :
    env.region t = env'.region t := by
  unfold region
  cases hinput : t.input with
  | none => rw [hstdin]
  | some path => simp only [hfiles path hinput]

theorem databaseFault?_congr {path : String} (hfile : env.files path = env'.files path) :
    env.databaseFault? path = env'.databaseFault? path := by
  unfold databaseFault? FileSystem.has
  rw [hfile]

theorem loadDatabase_congr {path : String} (hfile : env.files path = env'.files path)
    (mode : Database.Mode) : env.loadDatabase mode path = env'.loadDatabase mode path := by
  unfold loadDatabase FileSystem.text
  rw [hfile]

theorem config_congr {a : Arguments} (h : ∀ path ∈ a.config, env.files path = env'.files path) :
    env.config a = env'.config a := by
  unfold config
  cases hpath : a.config with
  | none => rfl
  | some path =>
    have hload : env.loadConfig path = env'.loadConfig path := by
      unfold loadConfig FileSystem.text
      rw [h path hpath]
    rw [Option.map_some, Option.map_some, hload]

end Congr

end Environment

end ByteScan
