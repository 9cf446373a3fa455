import ByteScan.Config.Json
import ByteScan.Logged

/-!
# Configurations that can be used

A configuration can be used if it limits the matches to no number, or to one above zero, and if there
is a level of the name that it gives for the log. One that was read from a file has been checked.

* `LogLevel.IsName`: a name for which there is a level.

Results:
1. `Config.fault?_eq_none`, `Config.validate_eq_ok`: the check.
2. `Config.read_eq_ok`: files.
-/

namespace ByteScan

/-- There is a level of this name. -/
def LogLevel.IsName (text : String) : Prop :=
  (ofText? text).isSome = true

instance : DecidablePred LogLevel.IsName :=
  fun text => inferInstanceAs (Decidable ((LogLevel.ofText? text).isSome = true))

theorem LogLevel.isName_getD {level? : Option String} {default : String}
    (h : ∀ level ∈ level?, IsName level) (hdefault : IsName default) :
    IsName (level?.getD default) := by
  cases level? with
  | none => exact hdefault
  | some level => exact h level rfl

namespace Config

variable {c c' : Config}

/-! ## 1. The check -/

theorem fault?_eq_none :
    c.fault? = none ↔ c.maxMatches ≠ some 0 ∧ LogLevel.IsName c.logLevel := by
  unfold fault? LogLevel.IsName
  by_cases hzero : c.maxMatches = some 0
  · simp [hzero]
  · cases LogLevel.ofText? c.logLevel with
    | none => simp [hzero]
    | some level => simp [hzero]

theorem validate_eq_ok : c.validate = .ok c' ↔ c.fault? = none ∧ c = c' := by
  unfold validate
  cases c.fault? with
  | none =>
    constructor
    · rintro ⟨⟩
      exact ⟨rfl, rfl⟩
    · rintro ⟨-, rfl⟩
      rfl
  | some fault =>
    constructor
    · rintro ⟨⟩
    · rintro ⟨⟨⟩, -⟩

/-! ## 2. Files -/

section Files

variable {text : String}

theorem read_of_ofJson? (h : Json.read? text >>= ofJson? = some c) :
    read text = c.validate.mapError .invalid := by
  unfold read
  rw [h]

/-- A file that is read is a configuration's document, and the configuration can be used. -/
theorem read_eq_ok :
    read text = .ok c ↔ Json.read? text >>= ofJson? = some c ∧ c.fault? = none := by
  cases hdocument : Json.read? text >>= ofJson? with
  | none =>
    unfold read
    rw [hdocument]
    constructor
    · rintro ⟨⟩
    · rintro ⟨⟨⟩, -⟩
  | some c' =>
    rw [read_of_ofJson? hdocument, Result.mapError_eq_ok, validate_eq_ok]
    constructor
    · rintro ⟨hfault, rfl⟩
      exact ⟨rfl, hfault⟩
    · rintro ⟨heq, hfault⟩
      obtain rfl := Option.some.inj heq
      exact ⟨hfault, rfl⟩

theorem fault?_of_read (h : read text = .ok c) : c.fault? = none :=
  (read_eq_ok.mp h).2

end Files

end Config

end ByteScan
