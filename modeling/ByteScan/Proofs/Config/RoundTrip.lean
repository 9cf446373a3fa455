import ByteScan.Proofs.Config.Members

/-!
# A configuration that is written is read back

A configuration is written as an object that gives each setting its value. So it is read back from
its document as it was, be it one that can be used or not, and then it is checked: the check finds in
it what it found before.

Results:
1. `Config.describes_compact`: the document of a configuration.
2. `Config.foldl_set_setting`: the settings of a configuration make the configuration.
3. `Config.read_compact_toJson`: the answer for the document.
-/

namespace ByteScan

namespace Config

theorem written_value (c : Config) (f : Field) : (c.setting f).Written (c.value f) := by
  cases f with
  | parallel => exact .parallel c.parallel
  | maxMatches =>
    unfold setting value
    cases c.maxMatches with
    | none => exact .unlimited
    | some limit => exact .maxMatches limit
  | outputFormat => exact .outputFormat c.outputFormat
  | color => exact .color c.color
  | logLevel => exact .logLevel c.logLevel
  | lenientDatabase => exact .lenientDatabase c.lenientDatabase

/-- Each setting is given once, in the order of the settings. -/
theorem describes_compact (c : Config) :
    Describes c.toJson.compact (Field.all.map c.setting) := by
  have hmember : ∀ f, Member (some f.name, c.value f) (some (c.setting f)) := by
    intro f
    have h := Member.setting (c.written_value f)
    rwa [field_setting] at h
  refine ⟨_, (Field.all.map c.setting).map some, Json.writes_compact _, ?_, ?_, ?_⟩
  · rw [List.map_map, List.map_map, List.forall₂_map_left_iff, List.forall₂_map_right_iff]
    exact List.forall₂_same.mpr fun f _ => hmember f
  · rfl
  · simp only [List.map_map, Function.comp_def, field_setting]
    decide

theorem foldl_set_setting (c : Config) : (Field.all.map c.setting).foldl set {} = c :=
  rfl

/-- A configuration's document is read as the configuration itself if it can be used, and otherwise
refused for the fault that the check finds in the configuration. It is never refused as a document. -/
theorem read_compact_toJson (c : Config) :
    (c.validate = .ok c ∧ read c.toJson.compact = .ok c) ∨
      ∃ fault, c.validate = .error fault ∧ read c.toJson.compact = .error (.invalid fault) := by
  have hread := read_of_describes c.describes_compact
  rw [foldl_set_setting] at hread
  rw [hread]
  unfold validate
  cases c.fault? with
  | none => exact .inl ⟨rfl, rfl⟩
  | some fault => exact .inr ⟨fault, rfl, rfl⟩

end Config

end ByteScan
