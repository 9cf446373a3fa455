import ByteScan.Proofs.Config.Validity
import Mathlib.Data.List.Forall2

/-!
# Configurations that differ in their log and in how entries are searched

Two settings of a configuration say nothing about results: whether entries are searched for at the
same time, and the log level, as long as there is a level of that name. Documents that differ in the
values of these two settings, be they good or bad otherwise, are refused for the same fault or read
as configurations that differ in nothing else.

* `LogLevel.Alike`: the same text, or two names of levels.
* `Config.Alike`: configurations that differ in the two settings only.
* `Config.Field.Retuned`, `Config.Retuned`, `Config.Edited`: values, documents and texts that do.
* `Config.GivenAlike`: what such documents give to a setting.
* `Config.EndAlike`: the same fault, or configurations that are alike.

Results:
1. `Config.rel_ofValues?`, `Config.rel_ofJson?`: documents.
2. `Config.endAlike_validate`, `Config.endAlike_read`: the check, and texts.
-/

namespace ByteScan

/-! ## Definitions -/

/-- The two texts are the same, or there is a level for each of them. -/
def LogLevel.Alike (level level' : String) : Prop :=
  level = level' ∨ IsName level ∧ IsName level'

namespace Config

/-- The configurations differ at most in `parallel`, and in a log level that has a name in both. -/
structure Alike (c c' : Config) : Prop where
  maxMatches : c.maxMatches = c'.maxMatches
  outputFormat : c.outputFormat = c'.outputFormat
  color : c.color = c'.color
  logLevel : LogLevel.Alike c.logLevel c'.logLevel
  lenientDatabase : c.lenientDatabase = c'.lenientDatabase

/-- Another value for a setting: a truth value of `parallel`, or the name of a log level. -/
inductive Field.Retuned : Field → Json → Json → Prop
  | parallel (b b' : Bool) : Retuned .parallel (.ofBool b) (.ofBool b')
  | logLevel {level level' : String} (h : LogLevel.IsName level) (h' : LogLevel.IsName level') :
      Retuned .logLevel (.ofText level) (.ofText level')

/-- Members with the same names, whose values differ at most where the name is that of one of the two
settings. -/
abbrev MembersAlike : List (Option String × Json) → List (Option String × Json) → Prop :=
  List.Forall₂ fun m m' => m.1 = m'.1 ∧
    (m.2 = m'.2 ∨ ∃ f : Field, m.1 = some f.name ∧ f.Retuned m.2 m'.2)

/-- Documents that differ at most in the values of these two settings. In an array a setting is known
by its place. -/
inductive Retuned : Json → Json → Prop
  | object {ms ms' : List (Option String × Json)} (h : MembersAlike ms ms') :
      Retuned (.object ms) (.object ms')
  | array {vs vs' : List Json} (hlength : vs.length = vs'.length)
      (h : ∀ (i : Nat) (v v' : Json), vs[i]? = some v → vs'[i]? = some v' →
        v = v' ∨ ∃ f, Field.all[i]? = some f ∧ f.Retuned v v') :
      Retuned (.array vs) (.array vs')

/-- What two documents give to a setting: nothing, the same value, or another one. -/
def GivenAlike (f : Field) : Option Json → Option Json → Prop :=
  Option.Rel fun v v' => v = v' ∨ f.Retuned v v'

/-- Texts of configuration files that differ at most in the two settings: the same text; documents
that differ in the values of these settings, whatever else stands in them; or documents for
configurations that are alike, however they are written. -/
inductive Edited : String → String → Prop
  | same (text : String) : Edited text text
  | retuned {text text' : String} {v v' : Json} (h : Json.read? text = some v)
      (h' : Json.read? text' = some v') (hv : Retuned v v') : Edited text text'
  | rewritten {text text' : String} {c c' : Config} (h : Json.read? text >>= ofJson? = some c)
      (h' : Json.read? text' >>= ofJson? = some c') (hc : c.Alike c') : Edited text text'

/-- The same fault, or configurations that are alike. -/
inductive EndAlike {ε : Type} : Except ε Config → Except ε Config → Prop
  | ok {c c' : Config} (h : c.Alike c') : EndAlike (.ok c) (.ok c')
  | error (fault : ε) : EndAlike (.error fault) (.error fault)

/-! ## 1. Documents -/

theorem Alike.refl (c : Config) : c.Alike c :=
  ⟨rfl, rfl, rfl, .inl rfl, rfl⟩

theorem rel_bind {α β γ δ : Type} {r : α → β → Prop} {s : γ → δ → Prop} {x : Option α}
    {y : Option β} {f : α → Option γ} {g : β → Option δ} (h : Option.Rel r x y)
    (hnext : ∀ a b, r a b → Option.Rel s (f a) (g b)) : Option.Rel s (x >>= f) (y >>= g) := by
  cases h with
  | some hab => exact hnext _ _ hab
  | none => exact .none

theorem rel_refl {α : Type} {r : α → α → Prop} (h : ∀ a, r a a) (x : Option α) :
    Option.Rel r x x := by
  cases x with
  | none => exact .none
  | some a => exact .some (h a)

theorem rel_head? {α : Type} {r : α → α → Prop} {xs ys : List α} (h : List.Forall₂ r xs ys) :
    Option.Rel r xs.head? ys.head? := by
  cases h with
  | nil => exact .none
  | cons h _ => exact .some h

namespace GivenAlike

variable {x y : Option Json}

/-- A setting other than the two has the same value. -/
theorem eq {f : Field} (h : GivenAlike f x y) (hparallel : f ≠ .parallel)
    (hlevel : f ≠ .logLevel) : x = y := by
  cases h with
  | none => rfl
  | some hv =>
    cases hv with
    | inl heq => rw [heq]
    | inr hretuned =>
      cases hretuned with
      | parallel b b' => exact absurd rfl hparallel
      | logLevel _ _ => exact absurd rfl hlevel

theorem rel_parallel (h : GivenAlike .parallel x y) (default : Bool) :
    Option.Rel (fun _ _ => True) (settingOr default bool? x) (settingOr default bool? y) := by
  cases h with
  | none => exact .some trivial
  | some hv =>
    cases hv with
    | inl heq =>
      subst heq
      exact rel_refl (fun _ => trivial) _
    | inr hretuned =>
      cases hretuned with
      | parallel b b' => exact .some trivial

theorem rel_logLevel (h : GivenAlike .logLevel x y) (default : String) :
    Option.Rel LogLevel.Alike (settingOr default text? x) (settingOr default text? y) := by
  cases h with
  | none => exact .some (.inl rfl)
  | some hv =>
    cases hv with
    | inl heq =>
      subst heq
      exact rel_refl (fun _ => .inl rfl) _
    | inr hretuned =>
      cases hretuned with
      | logLevel hname hname' => exact .some (.inr ⟨hname, hname'⟩)

end GivenAlike

theorem rel_ofValues? {given given' : Field → Option Json}
    (h : ∀ f, GivenAlike f (given f) (given' f)) :
    Option.Rel Alike (ofValues? given) (ofValues? given') := by
  have hmax := (h .maxMatches).eq (by decide) (by decide)
  have hformat := (h .outputFormat).eq (by decide) (by decide)
  have hcolor := (h .color).eq (by decide) (by decide)
  have hlenient := (h .lenientDatabase).eq (by decide) (by decide)
  unfold ofValues?
  rw [hmax, hformat, hcolor, hlenient]
  refine rel_bind ((h .parallel).rel_parallel _) fun parallel parallel' _ => ?_
  refine rel_bind (rel_refl Eq.refl _) ?_
  rintro maxMatches _ rfl
  refine rel_bind (rel_refl Eq.refl _) ?_
  rintro format _ rfl
  refine rel_bind (rel_refl Eq.refl _) ?_
  rintro color _ rfl
  refine rel_bind ((h .logLevel).rel_logLevel _) fun level level' hlevel => ?_
  refine rel_bind (rel_refl Eq.refl _) ?_
  rintro lenient _ rfl
  exact .some ⟨rfl, rfl, rfl, hlevel, rfl⟩

section Members

variable {ms ms' : List (Option String × Json)} (h : MembersAlike ms ms')
include h

theorem map_fst_of_membersAlike : ms.map Prod.fst = ms'.map Prod.fst := by
  induction h with
  | nil => rfl
  | cons hm _ ih => rw [List.map_cons, List.map_cons, hm.1, ih]

theorem forall₂_valuesOf (f : Field) :
    List.Forall₂ (fun v v' => v = v' ∨ f.Retuned v v') (valuesOf ms f) (valuesOf ms' f) := by
  induction h with
  | nil => exact .nil
  | @cons m m' ms ms' hm _ ih =>
    obtain ⟨hname, hvalue⟩ := hm
    by_cases hf : m.1 = some f.name
    · have hf' : m'.1 = some f.name := hname ▸ hf
      rw [valuesOf, valuesOf, List.filter_cons_of_pos (by simpa using hf),
        List.filter_cons_of_pos (by simpa using hf')]
      refine .cons ?_ ih
      cases hvalue with
      | inl heq => exact .inl heq
      | inr hretuned =>
        obtain ⟨f', hf'', hretuned⟩ := hretuned
        obtain rfl : f = f' := name_inj (Option.some.inj (hf.symm.trans hf''))
        exact .inr hretuned
    · have hf' : m'.1 ≠ some f.name := hname ▸ hf
      rw [valuesOf, valuesOf, List.filter_cons_of_neg (by simpa using hf),
        List.filter_cons_of_neg (by simpa using hf')]
      exact ih

end Members

theorem getElem?_idxOf (f : Field) : Field.all[Field.all.idxOf f]? = some f := by
  cases f <;> rfl

/-- Documents that differ at most in the two settings are read as configurations that do, or neither
of them is one for a configuration. -/
theorem rel_ofJson? {v v' : Json} (h : Retuned v v') :
    Option.Rel Alike (ofJson? v) (ofJson? v') := by
  cases h with
  | @object ms ms' hms =>
    have hnames : ms.all (·.1.isSome) = ms'.all (·.1.isSome) := by
      have hmap : ∀ l : List (Option String × Json),
          l.all (·.1.isSome) = (l.map Prod.fst).all Option.isSome := by
        intro l
        rw [List.all_map]
        rfl
      rw [hmap, hmap, map_fst_of_membersAlike hms]
    have honce : ∀ f, (valuesOf ms f).length = (valuesOf ms' f).length :=
      fun f => (forall₂_valuesOf hms f).length_eq
    simp only [ofJson?, hnames, honce]
    split
    · exact rel_ofValues? fun f => rel_head? (forall₂_valuesOf hms f)
    · exact .none
  | @array vs vs' hlength hvs =>
    rw [ofJson?, ofJson?, hlength]
    split
    · -- A setting is known by its place, so what differs at a place differs in its setting.
      refine rel_ofValues? fun f => ?_
      cases hv : vs[Field.all.idxOf f]? with
      | none =>
        have hv' : vs'[Field.all.idxOf f]? = none := by
          rwa [List.getElem?_eq_none_iff, ← hlength, ← List.getElem?_eq_none_iff]
        rw [hv']
        exact .none
      | some v =>
        have hplace : Field.all.idxOf f < vs'.length :=
          hlength ▸ (List.getElem?_eq_some_iff.mp hv).1
        rw [List.getElem?_eq_getElem hplace]
        refine .some ?_
        cases hvs _ _ _ hv (List.getElem?_eq_getElem hplace) with
        | inl heq => exact .inl heq
        | inr hretuned =>
          obtain ⟨f', hf', hretuned⟩ := hretuned
          obtain rfl : f = f' := Option.some.inj ((getElem?_idxOf f).symm.trans hf')
          exact .inr hretuned
    · exact .none

/-! ## 2. The check, and texts -/

theorem EndAlike.refl {ε : Type} (x : Except ε Config) : EndAlike x x := by
  cases x with
  | ok c => exact .ok (.refl c)
  | error fault => exact .error fault

theorem EndAlike.mapError {ε ε' : Type} {x y : Except ε Config} (h : EndAlike x y) (f : ε → ε') :
    EndAlike (x.mapError f) (y.mapError f) := by
  cases h with
  | ok h => exact .ok h
  | error fault => exact .error (f fault)

theorem endAlike_validate {c c' : Config} (h : c.Alike c') : EndAlike c.validate c'.validate := by
  unfold validate fault?
  rw [← h.maxMatches]
  by_cases hzero : c.maxMatches = some 0
  · rw [if_pos hzero, if_pos hzero]
    exact .error _
  · rw [if_neg hzero, if_neg hzero]
    cases h.logLevel with
    | inl heq =>
      rw [← heq]
      cases LogLevel.ofText? c.logLevel with
      | none => exact .error _
      | some level => exact .ok h
    | inr hnames =>
      obtain ⟨hname, hname'⟩ := hnames
      obtain ⟨level, hlevel⟩ := Option.isSome_iff_exists.mp hname
      obtain ⟨level', hlevel'⟩ := Option.isSome_iff_exists.mp hname'
      rw [hlevel, hlevel']
      exact .ok h

theorem endAlike_read {text text' : String} (h : Edited text text') :
    EndAlike (read text) (read text') := by
  have hdocuments : Option.Rel Alike (Json.read? text >>= ofJson?) (Json.read? text' >>= ofJson?) := by
    cases h with
    | same => exact rel_refl Alike.refl _
    | retuned hv hv' hretuned =>
      rw [hv, hv']
      exact rel_ofJson? hretuned
    | rewritten hc hc' halike =>
      rw [hc, hc']
      exact .some halike
  unfold read
  generalize Json.read? text >>= ofJson? = document at hdocuments ⊢
  generalize Json.read? text' >>= ofJson? = document' at hdocuments ⊢
  cases hdocuments with
  | none => exact .error ConfigError.json
  | some halike => exact (endAlike_validate halike).mapError ConfigError.invalid

end Config

end ByteScan
