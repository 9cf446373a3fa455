import ByteScan.Command.Run
import ByteScan.Proofs.Search.Series

/-!
# One match, and all matches but no more than one

A command that wants the first match searches otherwise than one that wants all matches and at most
one of them: the first asks for a start, the second takes starts from a cursor, and only the second
looks at a limit, its own before that of the configuration. What they come to is the same. Their
logs are not, since the matches are noted only if all of them are wanted.

* `Target.oneOfAll`, `Arguments.oneOfAll`: all matches wanted, but at most one.
* `Target.WantsFirst`: neither all matches are wanted nor is there a limit.

Results:
1. `Signature.starts_every_one`: one match from a cursor.
2. `Environment.targetFault?_oneOfAll`, `Environment.result_searchOne_oneOfAll`,
   `Environment.result_searchAll_oneOfAll`: the steps of a command.
3. `Environment.result_yield_oneOfAll`: what a command comes to.
   `Environment.execute_oneOfAll`: whole commands.
-/

namespace ByteScan

/-! ## Definitions -/

/-- The same target with all matches wanted, but at most one. -/
def Target.oneOfAll (t : Target) : Target :=
  { t with all := true, maxMatches := some 1 }

/-- The first match is wanted, and nothing is said of a limit. -/
def Target.WantsFirst (t : Target) : Prop :=
  t.all = false ∧ t.maxMatches = none

/-- The same command on another target. -/
def Command.mapTarget (f : Target → Target) : Command → Command
  | .find signature offset target => .find signature offset (f target)
  | .masked bytes mask offset target => .masked bytes mask offset (f target)
  | .database path lenient sequential target => .database path lenient sequential (f target)
  | .inspect signature => .inspect signature

/-- The same arguments with all matches wanted, but at most one. -/
def Arguments.oneOfAll (a : Arguments) : Arguments :=
  { a with command := a.command.mapTarget Target.oneOfAll }

/-! ## 1. Matches -/

namespace Signature

/-- The first match is the one that a cursor comes to first. -/
theorem starts_every_one (s : Signature) (region : List UInt8) :
    s.starts (.every (some 1)) region = s.starts .first region := by
  show (Cursor.take s 1 { rest := region }).1 = (s.firstStart? region).toList
  rw [Cursor.take_fst, Cursor.remaining_start, firstStart?_eq_head?, List.take_one]

theorem positions_every_one (s : Signature) (region : List UInt8) :
    s.positions (.every (some 1)) region = s.positions .first region := by
  rw [positions, positions, starts_every_one]

end Signature

theorem Scanner.hits_every_one (scanner other : Scanner) (h : scanner.parallel = other.parallel)
    (region : List UInt8) (d : Database) :
    scanner.hits (.every (some 1)) region d = other.hits .first region d := by
  have hentry : Database.Entry.hits? (.every (some 1)) region =
      Database.Entry.hits? .first region := by
    funext index e
    rw [Database.Entry.hits?, Database.Entry.hits?, Signature.positions_every_one]
  rw [hits, hits, h, hentry]

/-! ## 2. Steps -/

theorem Target.WantsFirst.extent {t : Target} (h : t.WantsFirst) (limit? : Option UInt64) :
    t.extent limit? = .first :=
  if_neg (Bool.eq_false_iff.mp h.1)

namespace Environment

variable (env : Environment) {t : Target} (h : t.WantsFirst)
include h

theorem targetFault?_oneOfAll : env.targetFault? t.oneOfAll = env.targetFault? t := by
  obtain ⟨hall, hlimit⟩ := h
  have hcannot : ¬ (t.maxMatches = some 0) := by rw [hlimit]; exact nofun
  have hmissing : ¬ (t.maxMatches.isSome ∧ t.all = false) := by rw [hlimit]; exact nofun
  rw [targetFault?, targetFault?, if_neg hcannot, if_neg hmissing]
  rfl

theorem result_searchOne_oneOfAll (c : Config) (name : String) (s : Signature) :
    (env.searchOne c name s t.oneOfAll).result = (env.searchOne c name s t).result := by
  rw [searchOne, searchOne]
  refine Logged.result_bind_congr rfl fun region => ?_
  have hstarts : s.starts (t.oneOfAll.extent c.maxMatches) region =
      s.starts (t.extent c.maxMatches) region := by
    rw [h.extent]
    exact s.starts_every_one region
  rw [hstarts]
  exact Logged.result_bind_congr rfl fun _ => rfl

theorem result_searchAll_oneOfAll (c : Config) (d : Database) (sequential : Bool) :
    (env.searchAll c d sequential t.oneOfAll).result = (env.searchAll c d sequential t).result := by
  rw [searchAll, searchAll]
  refine Logged.result_bind_congr rfl fun region => ?_
  -- The scanners differ in their limits, but only what the target wants is looked at.
  simp only [h.extent]
  refine Logged.result_bind_congr rfl fun _ => ?_
  have hhits := Scanner.hits_every_one
    ⟨c.parallel && !sequential, t.oneOfAll.maxMatches.or c.maxMatches⟩
    ⟨c.parallel && !sequential, t.maxMatches.or c.maxMatches⟩ rfl region d
  exact congrArg (fun hits => Except.ok ((hits.filterMap (d.finding? region)).foldl Report.push
    { source := t.source, regionSize := region.length })) hhits

end Environment

/-! ## 3. Commands -/

namespace Environment

variable (env : Environment)

section Search

variable {t : Target} (h : t.WantsFirst) (c : Config)
include h

/-- However the signature is read. -/
theorem result_searchFor_oneOfAll (name : String) (read : CommandStep Signature) :
    (env.searchFor c name read t.oneOfAll).result = (env.searchFor c name read t).result := by
  refine Logged.result_bind_congr (by rw [env.targetFault?_oneOfAll h]) fun _ => ?_
  exact Logged.result_bind_congr rfl fun s => env.result_searchOne_oneOfAll h c name s

theorem result_searchDatabase_oneOfAll (path : String) (lenient sequential : Bool) :
    (env.searchDatabase c path lenient sequential t.oneOfAll).result =
      (env.searchDatabase c path lenient sequential t).result := by
  refine Logged.result_bind_congr rfl fun _ => ?_
  refine Logged.result_bind_congr (by rw [env.targetFault?_oneOfAll h]) fun _ => ?_
  exact Logged.result_bind_congr rfl fun d => env.result_searchAll_oneOfAll h c d sequential

end Search

theorem result_yield_oneOfAll (c : Config) (command : Command)
    (h : ∀ t ∈ command.target?, t.WantsFirst) :
    (env.yield c (command.mapTarget Target.oneOfAll)).result = (env.yield c command).result := by
  cases command with
  | find signature offset t =>
    exact Logged.result_bind_congr (env.result_searchFor_oneOfAll (h t rfl) c _ _) fun _ => rfl
  | masked bytes mask offset t =>
    exact Logged.result_bind_congr (env.result_searchFor_oneOfAll (h t rfl) c _ _) fun _ => rfl
  | database path lenient sequential t =>
    exact Logged.result_bind_congr
      (env.result_searchDatabase_oneOfAll (h t rfl) c path lenient sequential) fun _ => rfl
  | inspect signature => rfl

theorem result_perform_oneOfAll (c : Config) (command : Command)
    (h : ∀ t ∈ command.target?, t.WantsFirst) :
    (env.perform c (command.mapTarget Target.oneOfAll)).result =
      (env.perform c command).result :=
  Logged.result_bind_congr (env.result_yield_oneOfAll c command h) fun _ => rfl

theorem result_run_oneOfAll (a : Arguments) (h : ∀ t ∈ a.command.target?, t.WantsFirst) :
    (env.run a.oneOfAll).result = (env.run a).result :=
  Logged.result_bind_congr rfl fun c => env.result_perform_oneOfAll c a.command h

/-- A command that wants the first match and says nothing of a limit writes the same as one that
wants all matches but at most one, and it has the same fault. This is so for every configuration:
the limit in it counts for neither. -/
theorem execute_oneOfAll (a : Arguments) (h : ∀ t ∈ a.command.target?, t.WantsFirst) :
    (env.execute a.oneOfAll).stdout = (env.execute a).stdout ∧
      (env.execute a.oneOfAll).fault = (env.execute a).fault ∧
      (env.execute a.oneOfAll).exitCode = (env.execute a).exitCode := by
  have hrun : (env.run a.oneOfAll).result = (env.run a).result := env.result_run_oneOfAll a h
  have hfault : (env.execute a.oneOfAll).fault = (env.execute a).fault := by
    rw [execute, execute, hrun]
    cases (env.run a).result <;> rfl
  refine ⟨?_, hfault, ?_⟩
  · rw [execute, execute, hrun]
    cases (env.run a).result <;> rfl
  · rw [Outcome.exitCode, Outcome.exitCode, hfault]

/-- Two matches, and a configuration that admits both: one match is written either way. -/
theorem execute_oneOfAll_90 :
    let env : Environment :=
      { files := fun path =>
          if path = "two.json" then .ok "\x7b\"max_matches\": 2\x7d".toUTF8.data.toList
          else .error .notFound
        stdin := [0x90, 0x90] }
    let a : Arguments := { config := some "two.json", command := .find "90" 0 {} }
    (env.execute a.oneOfAll).stdout = (env.execute a).stdout ∧
      (env.execute a.oneOfAll).fault = none := by
  intro env a
  obtain ⟨hstdout, hfault, -⟩ := env.execute_oneOfAll a fun t ht => by
    obtain rfl : {} = t := Option.some.inj ht
    exact ⟨rfl, rfl⟩
  refine ⟨hstdout, hfault.trans ?_⟩
  decide +kernel

end Environment

end ByteScan
