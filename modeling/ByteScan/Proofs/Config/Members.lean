import ByteScan.Proofs.Config.Validity
import ByteScan.Proofs.Json.Reading
import Mathlib.Data.List.Nodup
import Mathlib.Data.List.ReduceOption

/-!
# The settings in a configuration's object

An object that stands for a configuration is read member by member. A member whose name is that of a
setting gives the setting a value, and any other member is passed over, whatever its value is. So the
configuration is the default one with the values that are given, and neither the order of the members
nor what stands between them bears on it.

* `Config.Setting`: a setting with a value. `Config.setting`: the one that a configuration has.
* `Config.set`: a configuration with one setting changed.
* `Config.Setting.Written`: the JSON values for a value of a setting.
* `Config.Member`, `Config.Describes`: members and documents that give settings.

Results:
1. `Config.setting_foldl_set`, `Config.setting_foldl_set_of_ne`: many settings.
2. `Config.ofValues?_eq_some`: values that are given.
3. `Config.ofJson?_of_members`, `Config.read_of_describes`: documents.
4. `Config.read_perm_describes`: what a document's answer depends on.
-/

namespace ByteScan

namespace Config

/-! ## Definitions -/

/-- A setting with a value. -/
inductive Setting where
  | parallel (on : Bool)
  | maxMatches (limit? : Option UInt64)
  | outputFormat (format : OutputFormat)
  | color (on : Bool)
  | logLevel (name : String)
  | lenientDatabase (on : Bool)
  deriving DecidableEq, Repr

/-- Which setting it is. -/
def Setting.field : Setting → Field
  | parallel _ => .parallel
  | maxMatches _ => .maxMatches
  | outputFormat _ => .outputFormat
  | color _ => .color
  | logLevel _ => .logLevel
  | lenientDatabase _ => .lenientDatabase

/-- The JSON values that give this value to the setting. An output format is written by its name, or
by an object whose only member has that name and no value. -/
inductive Setting.Written : Setting → Json → Prop
  | parallel (on : Bool) : Written (.parallel on) (.ofBool on)
  | unlimited : Written (.maxMatches none) .null
  | maxMatches (limit : UInt64) : Written (.maxMatches (some limit)) (.ofNat limit.toNat)
  | outputFormat (format : OutputFormat) : Written (.outputFormat format) (.ofText format.name)
  | tagged (format : OutputFormat) :
      Written (.outputFormat format) (.ofMembers [(format.name, .null)])
  | color (on : Bool) : Written (.color on) (.ofBool on)
  | logLevel (name : String) : Written (.logLevel name) (.ofText name)
  | lenientDatabase (on : Bool) : Written (.lenientDatabase on) (.ofBool on)

/-- The configuration with this setting, and all others as they are. -/
def set (c : Config) : Setting → Config
  | .parallel on => { c with parallel := on }
  | .maxMatches limit? => { c with maxMatches := limit? }
  | .outputFormat format => { c with outputFormat := format }
  | .color on => { c with color := on }
  | .logLevel name => { c with logLevel := name }
  | .lenientDatabase on => { c with lenientDatabase := on }

/-- A setting with the value that the configuration has for it. -/
def setting (c : Config) : Field → Setting
  | .parallel => .parallel c.parallel
  | .maxMatches => .maxMatches c.maxMatches
  | .outputFormat => .outputFormat c.outputFormat
  | .color => .color c.color
  | .logLevel => .logLevel c.logLevel
  | .lenientDatabase => .lenientDatabase c.lenientDatabase

/-- A member of an object: one that gives a setting a value, or one of another name with any value. -/
inductive Member : Option String × Json → Option Setting → Prop
  | setting {s : Setting} {v : Json} (h : s.Written v) : Member (some s.field.name, v) (some s)
  | other {name : String} (h : ∀ f : Field, f.name ≠ name) (v : Json) : Member (some name, v) none

/-- The text is a document for an object that gives these settings, in this order and none of them
twice, with any other members between them. -/
def Describes (text : String) (settings : List Setting) : Prop :=
  ∃ members given, Json.Writes (.object members) text ∧ List.Forall₂ Member members given ∧
    given.reduceOption = settings ∧ (settings.map Setting.field).Nodup

/-! ## 1. Many settings -/

@[simp]
theorem field_setting (c : Config) (f : Field) : (c.setting f).field = f := by
  cases f <;> rfl

theorem eq_of_setting_eq {c c' : Config} (h : ∀ f, c.setting f = c'.setting f) : c = c' := by
  obtain ⟨_, _, _, _, _, _⟩ := c
  obtain ⟨_, _, _, _, _, _⟩ := c'
  obtain ⟨⟩ := h .parallel
  obtain ⟨⟩ := h .maxMatches
  obtain ⟨⟩ := h .outputFormat
  obtain ⟨⟩ := h .color
  obtain ⟨⟩ := h .logLevel
  obtain ⟨⟩ := h .lenientDatabase
  rfl

theorem setting_set (c : Config) (s : Setting) : (c.set s).setting s.field = s := by
  cases s <;> rfl

theorem setting_set_of_ne (c : Config) {s : Setting} {f : Field} (h : s.field ≠ f) :
    (c.set s).setting f = c.setting f := by
  cases s <;> cases f <;> first | rfl | exact absurd rfl h

theorem setting_foldl_set_of_ne (c : Config) {settings : List Setting} {f : Field}
    (h : ∀ s ∈ settings, s.field ≠ f) : (settings.foldl set c).setting f = c.setting f := by
  induction settings generalizing c with
  | nil => rfl
  | cons s settings ih =>
    obtain ⟨hs, hrest⟩ := List.forall_mem_cons.mp h
    rw [List.foldl_cons, ih _ hrest, setting_set_of_ne c hs]

/-- Each of the settings keeps its value if none of them is changed twice. -/
theorem setting_foldl_set (c : Config) {settings : List Setting}
    (hnodup : (settings.map Setting.field).Nodup) {s : Setting} (h : s ∈ settings) :
    (settings.foldl set c).setting s.field = s := by
  induction settings generalizing c with
  | nil => cases h
  | cons s' settings ih =>
    obtain ⟨hfirst, hnodup⟩ := List.nodup_cons.mp hnodup
    rw [List.foldl_cons]
    cases h with
    | head =>
      have hne : ∀ s' ∈ settings, s'.field ≠ s.field :=
        fun s' hs' heq => hfirst (heq ▸ List.mem_map_of_mem hs')
      rw [setting_foldl_set_of_ne _ hne, setting_set]
    | tail _ h => exact ih _ hnodup h

/-- The order in which settings are changed does not matter if none of them is changed twice. -/
theorem foldl_set_perm (c : Config) {settings settings' : List Setting}
    (h : settings'.Perm settings) (hnodup : (settings.map Setting.field).Nodup) :
    settings'.foldl set c = settings.foldl set c := by
  have hnodup' : (settings'.map Setting.field).Nodup :=
    (h.map Setting.field).nodup_iff.mpr hnodup
  refine eq_of_setting_eq fun f => ?_
  by_cases hf : ∃ s ∈ settings, s.field = f
  · obtain ⟨s, hs, rfl⟩ := hf
    rw [setting_foldl_set c hnodup hs, setting_foldl_set c hnodup' (h.mem_iff.mpr hs)]
  · have hne : ∀ s ∈ settings, s.field ≠ f := fun s hs heq => hf ⟨s, hs, heq⟩
    rw [setting_foldl_set_of_ne c hne,
      setting_foldl_set_of_ne c fun s hs => hne s (h.mem_iff.mp hs)]

/-! ## 2. Values that are given -/

/-- What gives a setting the value that it has in `c`: a value for it, or nothing if `c` has the
default. -/
def Gives (c : Config) (f : Field) : Option Json → Prop
  | none => c.setting f = ({} : Config).setting f
  | some v => (c.setting f).Written v

theorem formatNamed?_name (format : OutputFormat) :
    formatNamed? (some format.name) = some format := by
  cases format <;> rfl

theorem limit?_ofNat (limit : UInt64) : limit? (.ofNat limit.toNat) = some (some limit) := by
  show (if limit.toNat < UInt64.size then some (some (UInt64.ofNat limit.toNat)) else none) = _
  rw [if_pos limit.toNat_lt_size, UInt64.ofNat_toNat]

/-- Each of the values that give a setting its value is read as that value. -/
theorem Setting.Written.read {s : Setting} {v : Json} (h : s.Written v) :
    match s with
    | .parallel on => bool? v = some on
    | .maxMatches limit? => Config.limit? v = some limit?
    | .outputFormat format => format? v = some format
    | .color on => bool? v = some on
    | .logLevel name => text? v = some name
    | .lenientDatabase on => bool? v = some on := by
  cases h with
  | maxMatches limit => exact limit?_ofNat limit
  | outputFormat format => exact formatNamed?_name format
  | tagged format => exact formatNamed?_name format
  | _ => rfl

theorem settingOr_eq_some {α : Type} {default x : α} {read? : Json → Option α} {given : Option Json}
    (hnone : given = none → default = x) (hsome : ∀ v, given = some v → read? v = some x) :
    settingOr default read? given = some x := by
  cases given with
  | none => exact congrArg some (hnone rfl)
  | some v => exact hsome v rfl

theorem ofValues?_eq_some {c : Config} {given : Field → Option Json}
    (h : ∀ f, c.Gives f (given f)) : ofValues? given = some c := by
  have hdefault : ∀ f, given f = none → ({} : Config).setting f = c.setting f := by
    intro f hnone
    have hf := h f
    rw [hnone] at hf
    exact hf.symm
  have hgiven : ∀ f v, given f = some v → (c.setting f).Written v := by
    intro f v hsome
    have hf := h f
    rwa [hsome] at hf
  have hparallel : settingOr ({} : Config).parallel bool? (given .parallel) = some c.parallel :=
    settingOr_eq_some (fun hnone => Setting.parallel.inj (hdefault _ hnone))
      fun v hv => (hgiven _ v hv).read
  have hmax : settingOr ({} : Config).maxMatches limit? (given .maxMatches) = some c.maxMatches :=
    settingOr_eq_some (fun hnone => Setting.maxMatches.inj (hdefault _ hnone))
      fun v hv => (hgiven _ v hv).read
  have hformat : settingOr ({} : Config).outputFormat format? (given .outputFormat) =
      some c.outputFormat :=
    settingOr_eq_some (fun hnone => Setting.outputFormat.inj (hdefault _ hnone))
      fun v hv => (hgiven _ v hv).read
  have hcolor : settingOr ({} : Config).color bool? (given .color) = some c.color :=
    settingOr_eq_some (fun hnone => Setting.color.inj (hdefault _ hnone))
      fun v hv => (hgiven _ v hv).read
  have hlevel : settingOr ({} : Config).logLevel text? (given .logLevel) = some c.logLevel :=
    settingOr_eq_some (fun hnone => Setting.logLevel.inj (hdefault _ hnone))
      fun v hv => (hgiven _ v hv).read
  have hlenient : settingOr ({} : Config).lenientDatabase bool? (given .lenientDatabase) =
      some c.lenientDatabase :=
    settingOr_eq_some (fun hnone => Setting.lenientDatabase.inj (hdefault _ hnone))
      fun v hv => (hgiven _ v hv).read
  unfold ofValues?
  simp only [hparallel, hmax, hformat, hcolor, hlevel, hlenient]
  rfl

/-! ## 3. Documents -/

section Documents

variable {members : List (Option String × Json)} {given : List (Option Setting)}

theorem isSome_of_member (h : List.Forall₂ Member members given) :
    members.all (·.1.isSome) = true := by
  induction h with
  | nil => rfl
  | cons hm _ ih =>
    rw [List.all_cons, ih, Bool.and_true]
    cases hm <;> rfl

/-- What an object's members give to a setting. -/
theorem forall₂_written (h : List.Forall₂ Member members given) (f : Field) :
    List.Forall₂ Setting.Written (given.reduceOption.filter (·.field = f)) (valuesOf members f) := by
  induction h with
  | nil => exact .nil
  | @cons m s? members given hm _ ih =>
    cases hm with
    | @setting s v hv =>
      rw [List.reduceOption_cons_of_some]
      by_cases hf : s.field = f
      · subst hf
        rw [valuesOf, List.filter_cons_of_pos (by simp), List.filter_cons_of_pos (by simp)]
        exact .cons hv ih
      · have hname : (some s.field.name : Option String) ≠ some f.name :=
          fun heq => hf (name_inj (Option.some.inj heq))
        rw [valuesOf, List.filter_cons_of_neg (by simpa using hf),
          List.filter_cons_of_neg (by simpa using hname)]
        exact ih
    | @other name hother v =>
      have hname : (some name : Option String) ≠ some f.name :=
        fun heq => hother f (Option.some.inj heq).symm
      rw [List.reduceOption_cons_of_none, valuesOf, List.filter_cons_of_neg (by simpa using hname)]
      exact ih

theorem length_filter_field_le {settings : List Setting}
    (hnodup : (settings.map Setting.field).Nodup) (f : Field) :
    (settings.filter (·.field = f)).length ≤ 1 := by
  have hcount := List.nodup_iff_count_le_one.mp hnodup f
  rw [List.count_eq_countP, List.countP_map, List.countP_eq_length_filter] at hcount
  exact hcount

theorem gives_head? (h : List.Forall₂ Member members given)
    (hnodup : (given.reduceOption.map Setting.field).Nodup) (f : Field) :
    (given.reduceOption.foldl set {}).Gives f (valuesOf members f).head? := by
  have hwritten := forall₂_written h f
  cases hfilter : given.reduceOption.filter (·.field = f) with
  | nil =>
    rw [hfilter, List.forall₂_nil_left_iff] at hwritten
    rw [hwritten]
    refine setting_foldl_set_of_ne _ fun s hs hf => ?_
    exact List.filter_eq_nil_iff.mp hfilter s hs (decide_eq_true hf)
  | cons s rest =>
    rw [hfilter] at hwritten
    obtain ⟨v, values, hv, -, hvalues⟩ := List.forall₂_cons_left_iff.mp hwritten
    have hs : s ∈ given.reduceOption.filter (·.field = f) := hfilter ▸ List.mem_cons_self
    obtain ⟨hmem, hf⟩ := List.mem_filter.mp hs
    obtain rfl : s.field = f := of_decide_eq_true hf
    rw [hvalues]
    show ((given.reduceOption.foldl set {}).setting s.field).Written v
    rwa [setting_foldl_set _ hnodup hmem]

theorem ofJson?_of_members (h : List.Forall₂ Member members given)
    (hnodup : (given.reduceOption.map Setting.field).Nodup) :
    ofJson? (.object members) = some (given.reduceOption.foldl set {}) := by
  have honce : ∀ f, (valuesOf members f).length ≤ 1 := by
    intro f
    rw [← (forall₂_written h f).length_eq]
    exact length_filter_field_le hnodup f
  have hcheck : (members.all (·.1.isSome) && Field.all.all fun f => (valuesOf members f).length ≤ 1) =
      true := by
    rw [isSome_of_member h, Bool.true_and, List.all_eq_true]
    exact fun f _ => decide_eq_true (honce f)
  rw [ofJson?, if_pos hcheck]
  exact ofValues?_eq_some fun f => gives_head? h hnodup f

/-- A document that gives some settings is read as the default configuration with these settings,
and checked. -/
theorem read_of_describes {text : String} {settings : List Setting} (h : Describes text settings) :
    read text = (settings.foldl set {}).validate.mapError .invalid := by
  obtain ⟨members, given, htext, hmembers, rfl, hnodup⟩ := h
  refine read_of_ofJson? ?_
  rw [Json.read?_of_writes htext]
  exact ofJson?_of_members hmembers hnodup

end Documents

/-! ## 4. What a document's answer depends on -/

/-- What a configuration's object is read as: the default configuration with the settings that it
gives, if that can be used. Its answer is that of every other such object that gives the same
settings, in whatever order, between whatever other members and in whatever layout. -/
theorem read_perm_describes {text : String} {settings : List Setting}
    (h : Describes text settings) :
    read text = (settings.foldl set {}).validate.mapError .invalid ∧
      ∀ (text' : String) (settings' : List Setting), Describes text' settings' →
        settings'.Perm settings → read text' = read text := by
  have hnodup : (settings.map Setting.field).Nodup := by
    obtain ⟨_, _, _, _, _, hnodup⟩ := h
    exact hnodup
  refine ⟨read_of_describes h, fun text' settings' h' hperm => ?_⟩
  rw [read_of_describes h, read_of_describes h', foldl_set_perm {} hperm hnodup]

/-- Two settings over several lines, behind a member whose value contains the name of one of them, and
the same settings the other way round and by themselves. -/
theorem read_perm_describes_five :
    let members : List (Option String × Json) := [
      (some "x", .array [.ofText "\x7d", .ofMembers [("max_matches", .ofNat 0)]]),
      (some "max_matches", .ofNat 5),
      (some "output_format", .ofMembers [("json", .null)])]
    let other : List (Option String × Json) := [
      (some "output_format", .ofText "json"), (some "max_matches", .ofNat 5)]
    let settings : List Setting := [.maxMatches (some 5), .outputFormat .json]
    let text := (Json.object members).pretty
    let text' := (Json.object other).compact
    Describes text settings ∧ Describes text' settings.reverse ∧
      read text = .ok { maxMatches := some 5, outputFormat := .json } ∧ read text' = read text := by
  intro members other settings text text'
  have hmembers : List.Forall₂ Member members
      [none, some (.maxMatches (some 5)), some (.outputFormat .json)] :=
    .cons (.other (fun f => by cases f <;> decide) _) (.cons (.setting (.maxMatches 5))
      (.cons (.setting (.tagged .json)) .nil))
  have hother : List.Forall₂ Member other
      [some (.outputFormat .json), some (.maxMatches (some 5))] :=
    .cons (.setting (.outputFormat .json)) (.cons (.setting (.maxMatches 5)) .nil)
  have htext : Describes text settings :=
    ⟨members, _, Json.writes_pretty _, hmembers, rfl, by decide⟩
  have htext' : Describes text' settings.reverse :=
    ⟨other, _, Json.writes_compact _, hother, rfl, by decide⟩
  obtain ⟨hread, hsame⟩ := read_perm_describes htext
  refine ⟨htext, htext', hread.trans ?_, hsame _ _ htext' settings.reverse_perm⟩
  decide +kernel

end Config

end ByteScan
