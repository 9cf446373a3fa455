import ByteScan.CommandLine.Parser
import ByteScan.Proofs.CommandLine.Words
import ByteScan.Proofs.Text.Decimal

/-!
# The words for arguments

What a command line asks for is written as a list of words: an option with a value for each value
that is given, and an option without one for each switch that is on. The log level's option is repeated
as often as it is to be raised. Such words say nothing twice, and from them everything can be read
again, in whatever order they stand.

* `Word.withValue`, `Word.switch`: the words for one option.
* `Target.words`, `OffsetWords`, `Command.Words`, `Arguments.commonWords`: the words for arguments.
* `values`: the values that words give to an option.

Results:
1. `values_append`, `occurrences_append` and the like: words for several options.
2. `valueOf?_of_perm`, `occurrences_of_perm`: what is read off words depends on their number only.
3. `Command.Words.isLong`, `Arguments.isLong_commonWords`: the words for arguments are options of
   their level.
4. `Command.Words.admitted`, `Arguments.admitted_commonWords`: their values can be read.
5. `Command.Words.occurrences_le`, `Arguments.occurrences_commonWords_le`: they give no option
   twice, apart from the one that raises the log level.
-/

namespace ByteScan

open CommandLine

/-! ## Definitions -/

namespace CommandLine

/-- The words for an option with a value: one word if there is a value. -/
def Word.withValue (o : Opt) (text? : Option String) : List Word :=
  text?.toList.map (.value o · true)

/-- The words for an option without a value: one word if it is on. -/
def Word.switch (o : Opt) (on : Bool) : List Word :=
  if on then [.flag o] else []

/-- The words for an offset. An offset of zero may be left out. -/
inductive OffsetWords : Int64 → List Word → Prop
  | given (offset : Int64) : OffsetWords offset (Word.withValue .offset (some (toString offset.toInt)))
  | leftOut : OffsetWords 0 []

/-- The values that words give to an option. -/
def values (words : List Word) (o : Opt) : List String :=
  words.filterMap (·.valueOf? o)

end CommandLine

/-- The words for a target. -/
def Target.words (t : Target) : List Word :=
  Word.withValue .input t.input ++ Word.switch .all t.all ++
    Word.withValue .maxMatches (t.maxMatches.map fun limit => toString limit.toNat)

/-- The words for a command's own options. -/
inductive Command.Words : Command → List Word → Prop
  | find (signature : String) {offset : Int64} {words : List Word} (h : OffsetWords offset words)
      (t : Target) : Words (.find signature offset t) (words ++ t.words)
  | masked (bytes mask : String) {offset : Int64} {words : List Word} (h : OffsetWords offset words)
      (t : Target) : Words (.masked bytes mask offset t)
        (Word.withValue .bytes (some bytes) ++ Word.withValue .mask (some mask) ++ (words ++ t.words))
  | database (path : String) (lenient sequential : Bool) (t : Target) :
      Words (.database path lenient sequential t)
        (Word.withValue .database (some path) ++ Word.switch .lenient lenient ++
          Word.switch .sequential sequential ++ t.words)
  | inspect (signature : String) : Words (.inspect signature) []

/-- The words for the options that concern every command. -/
def Arguments.commonWords (a : Arguments) : List Word :=
  Word.withValue .logLevel a.logLevel ++ List.replicate a.verbosity.toNat (.flag .verbose) ++
    Word.withValue .config a.config ++ Word.switch .noColor a.noColor ++ Word.switch .json a.json

/-- The word for a command. -/
def Command.name : Command → CommandName
  | .find .. => .find
  | .masked .. => .masked
  | .database .. => .database
  | .inspect .. => .inspect

/-- The operand of a command. -/
def Command.operand? : Command → Option String
  | .find signature .. | .inspect signature => some signature
  | .masked .. | .database .. => none

/-! ## 1. Words for several options -/

namespace CommandLine

section Several

variable (ws ws' : List Word) (o o' : Opt) (text? : Option String) (on : Bool) (n : Nat)

@[simp]
theorem values_append : values (ws ++ ws') o = values ws o ++ values ws' o :=
  List.filterMap_append

@[simp]
theorem values_withValue : values (Word.withValue o text?) o' = if o = o' then text?.toList else [] := by
  cases text? with
  | none => simp [Word.withValue, values]
  | some text => by_cases h : o = o' <;> simp [Word.withValue, values, Word.valueOf?, h]

@[simp]
theorem values_switch : values (Word.switch o on) o' = [] := by
  cases on <;> rfl

@[simp]
theorem values_replicate : values (List.replicate n (.flag o)) o' = [] := by
  simp [values, Word.valueOf?]

@[simp]
theorem occurrences_append : occurrences (ws ++ ws') o = occurrences ws o + occurrences ws' o :=
  List.countP_append

@[simp]
theorem occurrences_withValue :
    occurrences (Word.withValue o text?) o' = if o = o' then text?.toList.length else 0 := by
  cases text? with
  | none => simp [Word.withValue, occurrences]
  | some text => by_cases h : o = o' <;> simp [Word.withValue, occurrences, Word.option?, h]

@[simp]
theorem occurrences_switch : occurrences (Word.switch o on) o' = if o = o' then on.toNat else 0 := by
  cases on with
  | false => simp [Word.switch, occurrences]
  | true => by_cases h : o = o' <;> simp [Word.switch, occurrences, Word.option?, h]

@[simp]
theorem occurrences_replicate :
    occurrences (List.replicate n (.flag o)) o' = if o = o' then n else 0 := by
  rw [occurrences, List.countP_replicate]
  simp [Word.option?]

end Several

/-! ## 2. What is read off words -/

section Perm

variable {ws ws' : List Word} {o : Opt}

theorem valueOf?_eq_head? (ws : List Word) (o : Opt) : valueOf? ws o = (values ws o).head? :=
  (List.head?_filterMap ..).symm

theorem given_eq_decide (ws : List Word) (o : Opt) : given ws o = decide (0 < occurrences ws o) := by
  rw [given, occurrences, List.any_eq]
  simp only [List.countP_pos_iff]

theorem occurrences_of_perm (h : ws.Perm ws') (o : Opt) : occurrences ws o = occurrences ws' o :=
  h.countP_eq _

/-- If words give an option one value at most, it is the value that they give in any order. -/
theorem valueOf?_of_perm (h : ws.Perm ws') {text? : Option String}
    (hvalues : values ws' o = text?.toList) : valueOf? ws o = text? := by
  have hperm : (values ws o).Perm text?.toList := hvalues ▸ h.filterMap _
  rw [valueOf?_eq_head?]
  cases text? with
  | none => rw [List.perm_nil.mp hperm]; rfl
  | some text => rw [List.perm_singleton.mp hperm]; rfl

theorem given_of_perm (h : ws.Perm ws') {on : Bool} (hcount : occurrences ws' o = on.toNat) :
    given ws o = on := by
  rw [given_eq_decide, occurrences_of_perm h, hcount]
  cases on <;> rfl

end Perm

/-! ## 3. Words that may stand on their level -/

section Acceptable

variable {o : Opt} {text? : Option String} {on : Bool} {n : Nat} {l : Level}

theorem isLong_withValue (ho : o ∈ l.options) (hvalue : o.takesValue = true) :
    ∀ w ∈ Word.withValue o text?, w.IsLong l := by
  intro w hw
  obtain ⟨text, -, rfl⟩ := List.mem_map.mp hw
  exact ⟨ho, hvalue, rfl⟩

theorem isLong_switch (ho : o ∈ l.options) (hvalue : o.takesValue = false) :
    ∀ w ∈ Word.switch o on, w.IsLong l := by
  intro w hw
  cases on with
  | false => cases hw
  | true =>
    obtain rfl := List.mem_singleton.mp hw
    exact ⟨ho, hvalue⟩

theorem isLong_replicate (ho : o ∈ l.options) (hvalue : o.takesValue = false) :
    ∀ w ∈ List.replicate n (Word.flag o), w.IsLong l := by
  intro w hw
  obtain rfl := List.eq_of_mem_replicate hw
  exact ⟨ho, hvalue⟩

theorem admitted_withValue (h : ∀ text ∈ text?, o.admits text = true) :
    ∀ w ∈ Word.withValue o text?, w.admitted = true := by
  intro w hw
  obtain ⟨text, htext, rfl⟩ := List.mem_map.mp hw
  exact h text (Option.mem_toList.mp htext)

theorem admitted_switch : ∀ w ∈ Word.switch o on, w.admitted = true := by
  intro w hw
  cases on with
  | false => cases hw
  | true =>
    obtain rfl := List.mem_singleton.mp hw
    rfl

theorem operands_of_isLong {ws : List Word} (h : ∀ w ∈ ws, w.IsLong l) : operands ws = [] := by
  refine List.filterMap_eq_nil_iff.mpr fun w hw => ?_
  have hlong := h w hw
  cases w with
  | operand text => exact hlong.elim
  | _ => rfl

theorem Word.IsLong.exists_option? {w : Word} (h : w.IsLong l) : ∃ o, w.option? = some o := by
  cases w with
  | operand text => exact h.elim
  | _ => exact ⟨_, rfl⟩

theorem occurrences_verbose_of_isLong {ws : List Word} (h : ∀ w ∈ ws, w.IsLong l)
    (hnone : .flag .verbose ∉ ws) : occurrences ws .verbose = 0 := by
  refine List.countP_eq_zero.mpr fun w hw heq => ?_
  have hlong := h w hw
  have hoption := of_decide_eq_true heq
  cases w with
  | flag o => exact hnone (Option.some.inj hoption ▸ hw)
  | value o text attached =>
    obtain rfl : o = .verbose := Option.some.inj hoption
    exact absurd hlong.2.1 (by decide)
  | operand text => exact hlong.elim

theorem occurrences_of_isLong {ws : List Word} (h : ∀ w ∈ ws, w.IsLong l) (ho : o ∉ l.options) :
    occurrences ws o = 0 := by
  refine List.countP_eq_zero.mpr fun w hw heq => ?_
  have hlong := h w hw
  have hoption := of_decide_eq_true heq
  cases w with
  | operand text => exact hlong.elim
  | _ => exact ho (Option.some.inj hoption ▸ hlong.1)

end Acceptable

end CommandLine

open CommandLine

theorem Arguments.isLong_commonWords (a : Arguments) {l : Level} (hl : ∀ o ∈ Level.common, o ∈ l.options) :
    ∀ w ∈ a.commonWords, w.IsLong l := by
  simp only [commonWords, List.forall_mem_append]
  exact ⟨⟨⟨⟨isLong_withValue (hl _ (by decide)) rfl, isLong_replicate (hl _ (by decide)) rfl⟩,
    isLong_withValue (hl _ (by decide)) rfl⟩, isLong_switch (hl _ (by decide)) rfl⟩,
    isLong_switch (hl _ (by decide)) rfl⟩

theorem Target.isLong_words (t : Target) {l : Level} (hl : ∀ o ∈ Level.scanning, o ∈ l.options) :
    ∀ w ∈ t.words, w.IsLong l := by
  simp only [words, List.forall_mem_append]
  exact ⟨⟨isLong_withValue (hl _ (by decide)) rfl, isLong_switch (hl _ (by decide)) rfl⟩,
    isLong_withValue (hl _ (by decide)) rfl⟩

theorem CommandLine.OffsetWords.isLong {offset : Int64} {ws : List Word} (h : OffsetWords offset ws)
    {l : Level} (hl : .offset ∈ l.options) : ∀ w ∈ ws, w.IsLong l := by
  cases h with
  | given => exact isLong_withValue hl rfl
  | leftOut => exact fun _ hw => nomatch hw

theorem Command.Words.isLong {command : Command} {own : List Word} (h : command.Words own) :
    ∀ w ∈ own, w.IsLong (.behind command.name) := by
  cases h with
  | find signature h t =>
    simp only [List.forall_mem_append, name]
    exact ⟨h.isLong (by decide), t.isLong_words (by decide)⟩
  | masked bytes mask h t =>
    simp only [List.forall_mem_append, name]
    exact ⟨⟨isLong_withValue (by decide) rfl, isLong_withValue (by decide) rfl⟩,
      h.isLong (by decide), t.isLong_words (by decide)⟩
  | database path lenient sequential t =>
    simp only [List.forall_mem_append, name]
    exact ⟨⟨⟨isLong_withValue (by decide) rfl, isLong_switch (by decide) rfl⟩,
      isLong_switch (by decide) rfl⟩, t.isLong_words (by decide)⟩
  | inspect signature => exact fun _ hw => nomatch hw

/-! ## 4. Values that can be read -/

theorem Target.admitted_words {t : Target} (hinput : ∀ path ∈ t.input, path ≠ "") :
    ∀ w ∈ t.words, w.admitted = true := by
  simp only [words, List.forall_mem_append]
  refine ⟨⟨admitted_withValue fun path hpath => ?_, admitted_switch⟩,
    admitted_withValue fun text htext => ?_⟩
  · exact decide_eq_true (hinput path hpath)
  · obtain ⟨limit, -, rfl⟩ := Option.map_eq_some_iff.mp htext
    exact Option.isSome_iff_exists.mpr ⟨limit, Text.uint64?_toString limit⟩

theorem CommandLine.OffsetWords.admitted {offset : Int64} {ws : List Word}
    (h : OffsetWords offset ws) : ∀ w ∈ ws, w.admitted = true := by
  cases h with
  | given =>
    refine admitted_withValue fun text htext => ?_
    obtain rfl := Option.some.inj htext
    exact Option.isSome_iff_exists.mpr ⟨offset, Text.int64?_toString offset⟩
  | leftOut => exact fun _ hw => nomatch hw

theorem Arguments.admitted_commonWords {a : Arguments} (hconfig : ∀ path ∈ a.config, path ≠ "") :
    ∀ w ∈ a.commonWords, w.admitted = true := by
  simp only [commonWords, List.forall_mem_append]
  refine ⟨⟨⟨⟨admitted_withValue fun _ _ => rfl, ?_⟩, admitted_withValue fun path hpath => ?_⟩,
    admitted_switch⟩, admitted_switch⟩
  · intro w hw
    obtain rfl := List.eq_of_mem_replicate hw
    rfl
  · exact decide_eq_true (hconfig path hpath)

theorem Command.Words.admitted {command : Command} {own : List Word} (h : command.Words own)
    (hpaths : ∀ path ∈ command.paths, path ≠ "") : ∀ w ∈ own, w.admitted = true := by
  cases h with
  | find signature h t =>
    simp only [List.forall_mem_append]
    exact ⟨h.admitted, t.admitted_words fun path hpath => hpaths path (Option.mem_toList.mpr hpath)⟩
  | masked bytes mask h t =>
    simp only [List.forall_mem_append]
    exact ⟨⟨admitted_withValue fun _ _ => rfl, admitted_withValue fun _ _ => rfl⟩, h.admitted,
      t.admitted_words fun path hpath => hpaths path (Option.mem_toList.mpr hpath)⟩
  | database path lenient sequential t =>
    obtain ⟨hpath, hinput⟩ := List.forall_mem_cons.mp hpaths
    simp only [List.forall_mem_append]
    refine ⟨⟨⟨admitted_withValue fun text htext => ?_, admitted_switch⟩, admitted_switch⟩,
      t.admitted_words fun path hpath => hinput path (Option.mem_toList.mpr hpath)⟩
    obtain rfl := Option.some.inj htext
    exact decide_eq_true hpath
  | inspect signature => exact fun _ hw => nomatch hw

/-! ## 5. Options that are given once -/

section Once

variable {o : Opt}

theorem Arguments.occurrences_commonWords_le (a : Arguments) (ho : o ≠ .verbose) :
    occurrences a.commonWords o ≤ 1 := by
  cases o <;> first
    | exact absurd rfl ho
    | simp [commonWords, Bool.toNat_le]

theorem Arguments.occurrences_commonWords_of_not_mem (a : Arguments) (ho : o ∉ Level.common) :
    occurrences a.commonWords o = 0 := by
  cases o <;> first
    | exact absurd (by decide) ho
    | simp [commonWords]

theorem Target.occurrences_words_le (t : Target) (o : Opt) : occurrences t.words o ≤ 1 := by
  cases o <;> simp [words, Bool.toNat_le]

theorem Target.occurrences_words_of_not_mem (t : Target) (ho : o ∉ Level.scanning) :
    occurrences t.words o = 0 := by
  cases o <;> first
    | exact absurd (by decide) ho
    | simp [words]

namespace CommandLine.OffsetWords

variable {offset : Int64} {ws : List Word} (h : OffsetWords offset ws) (t : Target)
include h

theorem occurrences_le (o : Opt) : occurrences ws o ≤ 1 := by
  cases h with
  | given => by_cases ho : Opt.offset = o <;> simp [ho]
  | leftOut => exact Nat.zero_le 1

theorem occurrences_of_ne (ho : o ≠ .offset) : occurrences ws o = 0 := by
  cases h with
  | given => simp [ho.symm]
  | leftOut => rfl

/-- An offset and a target. -/
theorem occurrences_append_le (o : Opt) : occurrences (ws ++ t.words) o ≤ 1 := by
  rw [occurrences_append]
  by_cases ho : o = .offset
  · subst ho
    rw [t.occurrences_words_of_not_mem (by decide)]
    exact h.occurrences_le .offset
  · rw [h.occurrences_of_ne ho, Nat.zero_add]
    exact t.occurrences_words_le o

theorem occurrences_append_of_not_mem (ho : o ∉ .offset :: Level.scanning) :
    occurrences (ws ++ t.words) o = 0 := by
  rw [occurrences_append, h.occurrences_of_ne (List.ne_of_not_mem_cons ho),
    t.occurrences_words_of_not_mem (List.not_mem_of_not_mem_cons ho)]

end CommandLine.OffsetWords

namespace Command.Words

variable {command : Command} {own : List Word} (h : command.Words own)
include h

/-- The words for a command's own options give none of them twice. -/
theorem occurrences_le (o : Opt) : occurrences own o ≤ 1 := by
  cases h with
  | find signature h t => exact h.occurrences_append_le t o
  | masked bytes mask h t =>
    rw [occurrences_append]
    by_cases ho : o ∈ .offset :: Level.scanning
    · have hnone : Opt.bytes ≠ o ∧ Opt.mask ≠ o := by
        constructor <;> rintro rfl <;> exact absurd ho (by decide)
      simpa [hnone] using h.occurrences_append_le t o
    · rw [h.occurrences_append_of_not_mem t ho]
      cases o <;> simp
  | database path lenient sequential t =>
    rw [occurrences_append]
    by_cases ho : o ∈ Level.scanning
    · have hnone : Opt.database ≠ o ∧ Opt.lenient ≠ o ∧ Opt.sequential ≠ o := by
        refine ⟨?_, ?_, ?_⟩ <;> rintro rfl <;> exact absurd ho (by decide)
      simpa [hnone] using t.occurrences_words_le o
    · rw [t.occurrences_words_of_not_mem ho]
      cases o <;> simp [Bool.toNat_le]
  | inspect signature => exact Nat.zero_le 1

/-- None of a command's own options is one that concerns every command. -/
theorem occurrences_of_mem_common (ho : o ∈ Level.common) : occurrences own o = 0 := by
  have hsearch : ∀ o ∈ Level.common, o ∉ .offset :: Level.scanning := by decide
  have hown : ∀ o ∈ Level.common,
      Opt.bytes ≠ o ∧ Opt.mask ≠ o ∧ Opt.database ≠ o ∧ Opt.lenient ≠ o ∧ Opt.sequential ≠ o := by
    decide
  cases h with
  | find signature h t => exact h.occurrences_append_of_not_mem t (hsearch o ho)
  | masked bytes mask h t =>
    rw [occurrences_append, h.occurrences_append_of_not_mem t (hsearch o ho)]
    simp [hown o ho]
  | database path lenient sequential t =>
    rw [occurrences_append, t.occurrences_words_of_not_mem (List.not_mem_of_not_mem_cons (hsearch o ho))]
    simp [hown o ho]
  | inspect signature => rfl

end Command.Words

end Once

end ByteScan
