import ByteScan.Proofs.Database.Sections

/-!
# Strict and lenient reading

Both ways of reading go over the same lines and sections. They part where something is wrong that
lenient reading puts up with, and there strict reading ends while lenient reading notes a warning.
So strict reading comes to a database exactly if lenient reading comes to it without a warning.

* `Agree`: two readings that are related in this way.

Results:
1. `Agree.refl_of_quiet`, `Agree.of_warning`, `Agree.bind`: readings that agree.
2. `Section.agree_readLines`, `Section.agree_readEntry`, `agree_entriesOf`: lines and sections.
3. `parse_strict_eq_ok_iff`: whole files.
-/

namespace ByteScan

variable {ε α β : Type}

/-! ## 1. Agreement -/

/-- The strict reading comes to what the lenient one comes to without a warning, and to nothing
else. -/
def Agree (strict lenient : Logged Event ε α) : Prop :=
  ∀ a, strict.result = .ok a ↔
    lenient.result = .ok a ∧ ∀ e ∈ lenient.events, e.level ≠ .warn

namespace Agree

theorem refl_of_quiet {x : Logged Event ε α} (h : ∀ e ∈ x.events, e.level ≠ .warn) : Agree x x :=
  fun _ => ⟨fun hx => ⟨hx, h⟩, fun hx => hx.1⟩

theorem of_warning {strict lenient : Logged Event ε α} {fault : ε} {e : Event}
    (hstrict : strict.result = .error fault) (he : e ∈ lenient.events) (hlevel : e.level = .warn) :
    Agree strict lenient := by
  intro a
  rw [hstrict]
  exact ⟨(nomatch ·), fun h => absurd hlevel (h.2 e he)⟩

/-- Readings agree that begin with readings that agree and go on with readings that agree. -/
theorem bind {strict lenient : Logged Event ε α} {f g : α → Logged Event ε β}
    (h : Agree strict lenient) (hnext : ∀ a, Agree (f a) (g a)) :
    Agree (strict >>= f) (lenient >>= g) := by
  intro b
  constructor
  · intro hb
    cases hs : strict.result with
    | error fault =>
      rw [Logged.bind_of_error f hs] at hb
      cases hb
    | ok a =>
      -- The lenient reading goes on from the same value, without a warning so far.
      obtain ⟨hl, hquiet⟩ := (h a).mp hs
      rw [Logged.bind_of_ok f hs] at hb
      obtain ⟨hb', hquiet'⟩ := (hnext a b).mp hb
      rw [Logged.bind_of_ok g hl]
      refine ⟨hb', fun e he => ?_⟩
      rw [List.mem_append] at he
      exact he.elim (hquiet e) (hquiet' e)
  · rintro ⟨hb, hquiet⟩
    cases hl : lenient.result with
    | error fault =>
      rw [Logged.bind_of_error g hl] at hb
      cases hb
    | ok a =>
      rw [Logged.bind_of_ok g hl] at hb hquiet
      have hs := (h a).mpr ⟨hl, fun e he => hquiet e (List.mem_append_left _ he)⟩
      have hf := (hnext a b).mpr ⟨hb, fun e he => hquiet e (List.mem_append_right _ he)⟩
      rw [Logged.bind_of_ok f hs]
      exact hf

end Agree

namespace Database

/-! ## 2. Lines and sections -/

namespace Section

theorem agree_readLine (settings : Settings) (number : Nat) (line : Line) :
    Agree (readLine .strict settings number line) (readLine .lenient settings number line) := by
  cases line with
  | ignored => exact .refl_of_quiet fun e he => nomatch he
  | header name => exact .refl_of_quiet fun e he => nomatch he
  | stray content => exact .refl_of_quiet fun e he => nomatch he
  | setting key value =>
    by_cases hflag : key = "ep_only"
    · subst hflag
      rw [readLine_flag, readLine_flag]
      split
      · exact .refl_of_quiet fun e he => nomatch he
      split
      · exact .refl_of_quiet fun e he => nomatch he
      · -- Neither true nor false: strict reading ends here, and lenient reading warns.
        exact .of_warning rfl (List.mem_singleton_self _) rfl
    by_cases hsignature : key = "signature"
    · subst hsignature
      exact .refl_of_quiet fun e he => nomatch he
    · rw [readLine_other _ _ _ hsignature hflag, readLine_other _ _ _ hsignature hflag]
      refine .refl_of_quiet fun e he => ?_
      obtain rfl : e = .ignoredKey number key := List.mem_singleton.mp he
      exact LogLevel.noConfusion

theorem agree_readLines (settings : Settings) (lines : List (Nat × Line)) :
    Agree (readLines .strict settings lines) (readLines .lenient settings lines) := by
  induction lines generalizing settings with
  | nil => exact .refl_of_quiet fun e he => nomatch he
  | cons l lines ih => exact .bind (agree_readLine settings l.1 l.2) ih

theorem agree_readEntry (s : Section) : Agree (s.readEntry .strict) (s.readEntry .lenient) := by
  refine .bind (agree_readLines {} s.body) fun settings => ?_
  have hbuild : ∀ e ∈ (s.build settings).events, e.level ≠ .warn := by
    intro e he
    obtain ⟨signature, rfl⟩ := eq_built_of_mem_events_build he
    exact LogLevel.noConfusion
  cases h : (s.build settings).result with
  | ok entry =>
    simp only [h]
    exact .refl_of_quiet hbuild
  | error fault =>
    simp only [h]
    exact .of_warning rfl (List.mem_append_right _ (List.mem_singleton_self _)) rfl

end Section

theorem agree_entriesOf (sections : List Section) :
    Agree (entriesOf .strict sections) (entriesOf .lenient sections) := by
  induction sections with
  | nil => exact .refl_of_quiet fun e he => nomatch he
  | cons s sections ih =>
    refine .bind s.agree_readEntry fun entry => .bind ih fun entries => ?_
    exact .refl_of_quiet fun e he => nomatch he

/-! ## 3. Files -/

/-- Strict reading accepts exactly the files that lenient reading accepts without a warning, and
both come to the same database then. -/
theorem parse_strict_eq_ok_iff (text : String) (d : Database) :
    (parse .strict text).result = .ok d ↔
      (parse .lenient text).result = .ok d ∧
        ∀ e ∈ (parse .lenient text).events, e.level ≠ .warn := by
  -- Both readings agree on the whole, since they agree in each step.
  revert d
  show Agree (parse .strict text) (parse .lenient text)
  cases hfront : (split (numberedLines text)).1.findSome? fun l => l.2.faultOutside? l.1 with
  | some fault =>
    rw [parse_of_front_fault _ hfront, parse_of_front_fault _ hfront]
    exact .refl_of_quiet fun e he => nomatch he
  | none =>
    rw [parse_of_front _ hfront, parse_of_front _ hfront]
    refine .bind (agree_entriesOf _) fun entries => .refl_of_quiet fun e he => ?_
    obtain rfl : e = .parsed entries.length := List.mem_singleton.mp he
    exact LogLevel.noConfusion

end Database

end ByteScan
