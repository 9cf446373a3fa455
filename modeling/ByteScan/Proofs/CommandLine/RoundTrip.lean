import ByteScan.Proofs.CommandLine.Written

/-!
# A command line that is written is read back

Arguments are written as a command line: the command's word, and behind it the words for its options
in any order and its operand behind two hyphens. The options that concern every command may stand in
front of the command's word too. Every such command line is read as the arguments that it was written
for, whatever is in the values: a value is never taken for an option, an operand or a command.

* `Arguments.Divided`, `Arguments.Arranged`: the words for arguments, divided over the two levels.
* `Command.tail`: how the operand of a command is written.

Results:
1. `judge_eq_ok_iff`: words that may stand on their level; `judge_eq_ok`, `combine_eq_append`: words of
   which none is given twice.
2. `commandOf?_of_perm`, `argumentsOf_of_perm`: what is read off words.
3. `Arguments.Divided.judge_front`, `Arguments.Divided.readBehind_eq_ok` and the like: the two levels.
4. `parse_arranged`: whole command lines.
-/

namespace ByteScan

open CommandLine
open scoped List

/-! ## Definitions -/

/-- The words for the arguments, divided over the two levels: `front` stands in front of the command's
word, and `behind` stands behind it in any order. It has the command's own words and those that are
kept of the words for the options that concern every command. -/
structure Arguments.Divided (a : Arguments) (front kept own behind : List Word) : Prop where
  words : a.command.Words own
  common : front ++ kept ~ a.commonWords
  level : behind ~ kept ++ own

/-- The words for the arguments, with `front` in front of the command's word and `behind` behind it.
Those that raise the log's level stand together on one side. -/
structure Arguments.Arranged (a : Arguments) (front behind : List Word) : Prop where
  divided : ∃ kept own, a.Divided front kept own behind
  verbose : .flag .verbose ∉ front ∨ .flag .verbose ∉ behind

/-- How the operand of a command is written, if it has one. -/
def Command.tail (c : Command) : List String :=
  c.operand?.elim [] fun text => ["--", text]

/-- The operand of a command as a word. -/
def Command.operandWords (c : Command) : List Word :=
  c.operand?.toList.map .operand

/-! ## 1. Words of which none is given twice -/

namespace CommandLine

section Judged

variable {l : Level} {words : List Word}

theorem judge_eq_ok_iff : judge l words = .ok () ↔
    (∀ w ∈ words, w.request? = none) ∧ acceptable l words = true := by
  rw [judge, ← List.findSome?_eq_none_iff]
  cases words.findSome? Word.request? with
  | some request => exact iff_of_false (fun h => nomatch h) fun h => nomatch h.1
  | none =>
    show (if acceptable l words then .ok () else .error Refusal.usage) = Except.ok () ↔ _
    split
    · next hacceptable => exact iff_of_true rfl ⟨rfl, hacceptable⟩
    · next hacceptable => exact iff_of_false (fun h => nomatch h) fun h => hacceptable h.2

theorem judge_eq_ok (hrequest : ∀ w ∈ words, w.request? = none)
    (hadmitted : ∀ w ∈ words, w.admitted = true)
    (honce : ∀ o, o ≠ .verbose → occurrences words o ≤ 1)
    (hoperands : (operands words).length ≤ l.operandCount) : judge l words = .ok () := by
  have hacceptable : acceptable l words = true := by
    simp only [acceptable, Bool.and_eq_true, List.all_eq_true, Bool.or_eq_true, decide_eq_true_eq]
    refine ⟨⟨hadmitted, fun o _ => ?_⟩, hoperands⟩
    by_cases ho : o = .verbose
    · exact .inl (ho ▸ rfl)
    · exact .inr (honce o ho)
  exact judge_eq_ok_iff.mpr ⟨hrequest, hacceptable⟩

theorem request?_of_occurrences (hhelp : occurrences words .help = 0)
    (hversion : occurrences words .version = 0) : ∀ w ∈ words, w.request? = none := by
  intro w hw
  have hne : ∀ o, occurrences words o = 0 → w.option? ≠ some o := by
    intro o ho heq
    exact List.countP_eq_zero.mp ho w hw (decide_eq_true heq)
  unfold Word.request?
  split
  · exact absurd rfl (hne .help hhelp)
  · exact absurd rfl (hne .version hversion)
  · rfl

theorem operands_append (ws ws' : List Word) : operands (ws ++ ws') = operands ws ++ operands ws' :=
  List.filterMap_append

theorem settled_of_isLong (h : ∀ w ∈ words, w.IsLong l) : settled words = words := by
  unfold settled
  split
  · next o text heq =>
    obtain ⟨-, -, hattached⟩ := h _ (List.mem_of_getLast? heq)
    cases hattached
  · rfl

/-- Words on the two levels that have no option in common. -/
theorem combine_eq_append {front behind : List Word}
    (h : ∀ w ∈ front, ∀ w' ∈ behind, w'.option? ≠ w.option?) :
    combine front behind = behind ++ front := by
  rw [combine, List.filter_eq_self.mpr]
  intro w hw
  exact List.all_eq_true.mpr fun w' hw' => decide_eq_true (h w hw w' hw')

end Judged

/-! ## 2. What is read off words -/

section Read

variable {words rest ws : List Word} {o : Opt}

theorem values_of_occurrences (h : occurrences words o = 0) : values words o = [] := by
  refine List.filterMap_eq_nil_iff.mpr fun w hw => ?_
  have hne : ¬ decide (w.option? = some o) = true := List.countP_eq_zero.mp h w hw
  cases w with
  | value o' text attached => exact if_neg fun ho => hne (decide_eq_true (congrArg some ho))
  | _ => rfl

/-- The words `ws` give an option its value, and no other words give it. -/
theorem valueOf?_of_perm_append (h : words.Perm (rest ++ ws)) (hrest : occurrences rest o = 0)
    {text? : Option String} (hvalues : values ws o = text?.toList) : valueOf? words o = text? := by
  refine valueOf?_of_perm h ?_
  rw [values_append, values_of_occurrences hrest, hvalues, List.nil_append]

theorem given_of_perm_append (h : words.Perm (rest ++ ws)) (hrest : occurrences rest o = 0)
    {on : Bool} (hcount : occurrences ws o = on.toNat) : given words o = on := by
  refine given_of_perm h ?_
  rw [occurrences_append, hrest, hcount, Nat.zero_add]

theorem offsetOf_of_perm {offset : Int64} (hwords : OffsetWords offset ws)
    (h : words.Perm (rest ++ ws)) (hrest : occurrences rest .offset = 0) : offsetOf words = offset := by
  unfold offsetOf
  cases hwords with
  | given =>
    have hvalue : valueOf? words .offset = some (toString offset.toInt) :=
      valueOf?_of_perm_append h hrest (by simp)
    rw [hvalue, Option.bind_some, Text.int64?_toString]
    rfl
  | leftOut =>
    have hvalue : valueOf? words .offset = none := valueOf?_of_perm_append h hrest rfl
    rw [hvalue]
    rfl

theorem targetOf_of_perm {t : Target} (h : words.Perm (rest ++ t.words))
    (hrest : ∀ o ∈ Level.scanning, occurrences rest o = 0) : targetOf words = t := by
  have hinput : valueOf? words .input = t.input :=
    valueOf?_of_perm_append h (hrest _ (by decide)) (by simp [Target.words])
  have hall : given words .all = t.all :=
    given_of_perm_append h (hrest _ (by decide)) (by simp [Target.words])
  have hmaxMatches : valueOf? words .maxMatches = t.maxMatches.map fun limit => toString limit.toNat :=
    valueOf?_of_perm_append h (hrest _ (by decide)) (by simp [Target.words])
  unfold targetOf
  rw [hinput, hall, hmaxMatches, Option.bind_map]
  simp only [Function.comp_def, Text.uint64?_toString, Option.bind_fun_some]

theorem perm_append_right_comm {ws' : List Word} (h : words.Perm (rest ++ (ws ++ ws'))) :
    words.Perm ((rest ++ ws') ++ ws) := by
  rw [List.append_assoc]
  exact h.trans (List.perm_append_comm.append_left rest)

/-- An offset and a target. -/
theorem offsetOf_targetOf_of_perm {offset : Int64} {t : Target} (hwords : OffsetWords offset ws)
    (h : words.Perm (rest ++ (ws ++ t.words)))
    (hrest : ∀ o ∈ .offset :: Level.scanning, occurrences rest o = 0) :
    offsetOf words = offset ∧ targetOf words = t := by
  obtain ⟨hoffset, hscanning⟩ := List.forall_mem_cons.mp hrest
  constructor
  · refine offsetOf_of_perm hwords (perm_append_right_comm h) ?_
    rw [occurrences_append, hoffset, t.occurrences_words_of_not_mem (by decide)]
  · rw [← List.append_assoc] at h
    refine targetOf_of_perm h fun o ho => ?_
    rw [occurrences_append, hscanning o ho, hwords.occurrences_of_ne]
    rintro rfl
    exact absurd ho (by decide)

end Read

/-- The words for a command's own options and its operand are read as the command, among other words
that give none of these options. -/
theorem commandOf?_of_perm {command : Command} {own other words : List Word} (hown : command.Words own)
    (h : words.Perm (other ++ own)) (hother : ∀ o, o ∉ Level.common → occurrences other o = 0)
    (hoperands : operands words = command.operand?.toList) :
    commandOf? words command.name = some command := by
  have hnotCommon : ∀ o ∈ .offset :: Level.scanning, o ∉ Level.common := by decide
  cases hown with
  | find signature hwords t =>
    obtain ⟨hoffset, htarget⟩ :=
      offsetOf_targetOf_of_perm hwords h fun o ho => hother o (hnotCommon o ho)
    simp [commandOf?, Command.name, hoperands, Command.operand?, hoffset, htarget]
  | masked bytes mask hwords t =>
    have hrest : ∀ o, o ∉ Level.common → o ∉ .offset :: Level.scanning →
        occurrences (other ++ (_ ++ t.words)) o = 0 := fun o ho ho' => by
      rw [occurrences_append, hother o ho, hwords.occurrences_append_of_not_mem t ho']
    have hbytes : valueOf? words .bytes = some bytes :=
      valueOf?_of_perm_append (perm_append_right_comm h) (hrest _ (by decide) (by decide)) (by simp)
    have hmask : valueOf? words .mask = some mask :=
      valueOf?_of_perm_append (perm_append_right_comm h) (hrest _ (by decide) (by decide)) (by simp)
    -- For the rest, the words for the bytes and the mask count among the others.
    obtain ⟨hoffset, htarget⟩ : offsetOf words = _ ∧ targetOf words = t := by
      rw [← List.append_assoc] at h
      refine offsetOf_targetOf_of_perm hwords h fun o ho => ?_
      have hne : Opt.bytes ≠ o ∧ Opt.mask ≠ o := by
        constructor <;> rintro rfl <;> exact absurd ho (by decide)
      simp [hother o (hnotCommon o ho), hne]
    simp [commandOf?, Command.name, hbytes, hmask, hoffset, htarget]
  | database path lenient sequential t =>
    have hrest : ∀ o, o ∉ Level.common → o ∉ Level.scanning →
        occurrences (other ++ t.words) o = 0 := fun o ho ho' => by
      rw [occurrences_append, hother o ho, t.occurrences_words_of_not_mem ho']
    have hpath : valueOf? words .database = some path :=
      valueOf?_of_perm_append (perm_append_right_comm h) (hrest _ (by decide) (by decide)) (by simp)
    have hlenient : given words .lenient = lenient :=
      given_of_perm_append (perm_append_right_comm h) (hrest _ (by decide) (by decide)) (by simp)
    have hsequential : given words .sequential = sequential :=
      given_of_perm_append (perm_append_right_comm h) (hrest _ (by decide) (by decide)) (by simp)
    have htarget : targetOf words = t := by
      rw [← List.append_assoc] at h
      refine targetOf_of_perm h fun o ho => ?_
      have hne : Opt.database ≠ o ∧ Opt.lenient ≠ o ∧ Opt.sequential ≠ o := by
        refine ⟨?_, ?_, ?_⟩ <;> rintro rfl <;> exact absurd ho (by decide)
      simp [hother o (hnotCommon o (List.mem_cons_of_mem _ ho)), hne]
    simp [commandOf?, Command.name, hpath, hlenient, hsequential, htarget]
  | inspect signature => simp [commandOf?, Command.name, hoperands, Command.operand?]

theorem argumentsOf_of_perm {a : Arguments} {rest words : List Word}
    (h : words.Perm (rest ++ a.commonWords)) (hrest : ∀ o ∈ Level.common, occurrences rest o = 0) :
    argumentsOf words a.command = a := by
  have hlogLevel : valueOf? words .logLevel = a.logLevel :=
    valueOf?_of_perm_append h (hrest _ (by decide)) (by simp [Arguments.commonWords])
  have hverbosity : occurrences words .verbose = a.verbosity.toNat := by
    rw [occurrences_of_perm h, occurrences_append, hrest _ (by decide)]
    simp [Arguments.commonWords]
  have hconfig : valueOf? words .config = a.config :=
    valueOf?_of_perm_append h (hrest _ (by decide)) (by simp [Arguments.commonWords])
  have hnoColor : given words .noColor = a.noColor :=
    given_of_perm_append h (hrest _ (by decide)) (by simp [Arguments.commonWords])
  have hjson : given words .json = a.json :=
    given_of_perm_append h (hrest _ (by decide)) (by simp [Arguments.commonWords])
  have hstep : min 255 a.verbosity.toNat = a.verbosity.toNat :=
    Nat.min_eq_right (Nat.le_of_lt_succ a.verbosity.toNat_lt)
  unfold argumentsOf
  rw [hlogLevel, hverbosity, hconfig, hnoColor, hjson, hstep, UInt8.ofNat_toNat]

end CommandLine

/-! ## 3. The two levels -/

namespace Command

variable (c : Command)

theorem occurrences_operandWords (o : Opt) : occurrences c.operandWords o = 0 := by
  cases c <;> rfl

theorem operands_operandWords : operands c.operandWords = c.operand?.toList := by
  cases c <;> rfl

theorem length_operand?_le : c.operand?.toList.length ≤ (Level.behind c.name).operandCount := by
  cases c <;> simp [operand?, name, Level.operandCount]

theorem admitted_operandWords : ∀ w ∈ c.operandWords, w.admitted = true := by
  intro w hw
  obtain ⟨text, -, rfl⟩ := List.mem_map.mp hw
  rfl

theorem readWords_tail :
    readWords (.behind c.name) .anything c.tail = (c.operandWords, .complete) := by
  cases c with
  | find signature _ _ => exact readWords_escape .find signature
  | inspect signature => exact readWords_escape .inspect signature
  | _ => exact readWords_nil _

end Command

namespace Arguments

theorem occurrences_commonWords_help (a : Arguments) : occurrences a.commonWords .help = 0 := by
  simp [commonWords]

namespace Divided

variable {a : Arguments} {front kept own behind : List Word} {o : Opt}
variable (h : a.Divided front kept own behind)
include h

/-! ### Options given twice -/

theorem occurrences_front_add_kept (o : Opt) :
    occurrences front o + occurrences kept o = occurrences a.commonWords o := by
  rw [← occurrences_append, occurrences_of_perm h.common]

theorem occurrences_behind (o : Opt) : occurrences behind o = occurrences kept o + occurrences own o := by
  rw [occurrences_of_perm h.level, occurrences_append]

theorem occurrences_of_not_mem_common (ho : o ∉ Level.common) :
    occurrences front o = 0 ∧ occurrences kept o = 0 := by
  have hsum := h.occurrences_front_add_kept o
  rw [a.occurrences_commonWords_of_not_mem ho] at hsum
  exact Nat.add_eq_zero_iff.mp hsum

theorem occurrences_front_add_kept_le (ho : o ≠ .verbose) :
    occurrences front o + occurrences kept o ≤ 1 :=
  h.occurrences_front_add_kept o ▸ a.occurrences_commonWords_le ho

theorem occurrences_behind_le (ho : o ≠ .verbose) : occurrences behind o ≤ 1 := by
  rw [h.occurrences_behind]
  by_cases hcommon : o ∈ Level.common
  · rw [h.words.occurrences_of_mem_common hcommon]
    exact (Nat.le_add_left _ _).trans (h.occurrences_front_add_kept_le ho)
  · rw [(h.occurrences_of_not_mem_common hcommon).2, Nat.zero_add]
    exact h.words.occurrences_le o

theorem occurrences_help : occurrences front .help = 0 ∧ occurrences behind .help = 0 := by
  have hsum := (h.occurrences_front_add_kept .help).trans a.occurrences_commonWords_help
  obtain ⟨hfront, hkept⟩ := Nat.add_eq_zero_iff.mp hsum
  refine ⟨hfront, ?_⟩
  rw [h.occurrences_behind, hkept, h.words.occurrences_of_mem_common (by decide)]

/-! ### Each level by itself -/

theorem isLong_front : ∀ w ∈ front, w.IsLong .front := fun w hw =>
  a.isLong_commonWords (by decide) w (h.common.subset (List.mem_append_left _ hw))

theorem isLong_behind : ∀ w ∈ behind, w.IsLong (.behind a.command.name) := by
  have hcommon : ∀ o ∈ Level.common, o ∈ (Level.behind a.command.name).options := fun o ho =>
    List.mem_append_left _ (List.mem_append_left _ ho)
  intro w hw
  obtain hkept | hown := List.mem_append.mp (h.level.subset hw)
  · exact a.isLong_commonWords hcommon w (h.common.subset (List.mem_append_right _ hkept))
  · exact h.words.isLong w hown

section Paths

variable (hpaths : ∀ path ∈ a.config.toList ++ a.command.paths, path ≠ "")
include hpaths

theorem admitted : (∀ w ∈ front, w.admitted = true) ∧ ∀ w ∈ behind, w.admitted = true := by
  obtain ⟨hconfig, hpaths⟩ := List.forall_mem_append.mp hpaths
  have hcommon : ∀ w ∈ front ++ kept, w.admitted = true := fun w hw =>
    admitted_commonWords (fun path hpath => hconfig path (Option.mem_toList.mpr hpath)) w
      (h.common.subset hw)
  obtain ⟨hfront, hkept⟩ := List.forall_mem_append.mp hcommon
  refine ⟨hfront, fun w hw => ?_⟩
  exact (List.mem_append.mp (h.level.subset hw)).elim (hkept w) (h.words.admitted hpaths w)

theorem judge_front : judge .front front = .ok () := by
  refine judge_eq_ok (request?_of_occurrences ?_ ?_) ?_ ?_ ?_
  · exact h.occurrences_help.1
  · exact (h.occurrences_of_not_mem_common (by decide)).1
  · exact (h.admitted hpaths).1
  · exact fun o ho => (Nat.le_add_right _ _).trans (h.occurrences_front_add_kept_le ho)
  · rw [operands_of_isLong h.isLong_front]
    exact Nat.zero_le _

theorem judge_behind :
    judge (.behind a.command.name) (behind ++ a.command.operandWords) = .ok () := by
  have hversion : ∀ c, Opt.version ∉ (Level.behind c).options := by
    rintro (_ | _ | _ | _) <;> decide
  have hoccurrences : ∀ o,
      occurrences (behind ++ a.command.operandWords) o = occurrences behind o := fun o => by
    rw [occurrences_append, a.command.occurrences_operandWords, Nat.add_zero]
  refine judge_eq_ok (request?_of_occurrences ?_ ?_) ?_ (fun o ho => ?_) ?_
  · rw [hoccurrences, h.occurrences_help.2]
  · rw [hoccurrences, occurrences_of_isLong h.isLong_behind (hversion _)]
  · exact List.forall_mem_append.mpr ⟨(h.admitted hpaths).2, a.command.admitted_operandWords⟩
  · rw [hoccurrences]
    exact h.occurrences_behind_le ho
  · rw [operands_append, operands_of_isLong h.isLong_behind, a.command.operands_operandWords]
    exact a.command.length_operand?_le

theorem readBehind_eq_ok :
    readBehind a.command.name (behind.map Word.argument ++ a.command.tail) =
      .ok (behind ++ a.command.operandWords, a.command) := by
  have hperm : behind ++ a.command.operandWords ~ kept ++ a.command.operandWords ++ own :=
    calc behind ++ a.command.operandWords
      _ ~ kept ++ own ++ a.command.operandWords := h.level.append_right _
      _ = kept ++ (own ++ a.command.operandWords) := List.append_assoc ..
      _ ~ kept ++ a.command.operandWords ++ own := perm_append_right_comm (.refl _)
  have hother : ∀ o, o ∉ Level.common → occurrences (kept ++ a.command.operandWords) o = 0 := by
    intro o ho
    rw [occurrences_append, (h.occurrences_of_not_mem_common ho).2,
      a.command.occurrences_operandWords]
  have hoperands : operands (behind ++ a.command.operandWords) = a.command.operand?.toList := by
    rw [operands_append, operands_of_isLong h.isLong_behind, a.command.operands_operandWords,
      List.nil_append]
  have hread : readWords (.behind a.command.name) .anything
      (behind.map Word.argument ++ a.command.tail) = (behind ++ a.command.operandWords, .complete) := by
    rw [readWords_arguments h.isLong_behind, a.command.readWords_tail]
  simp only [readBehind, hread, h.judge_behind hpaths,
    commandOf?_of_perm h.words hperm hother hoperands]
  rfl

end Paths

/-! ### Both levels -/

section Verbose

variable (hverbose : .flag .verbose ∉ front ∨ .flag .verbose ∉ behind)
include hverbose

/-- No option is given both in front of the command's word and behind it. -/
theorem occurrences_eq_zero_or (o : Opt) : occurrences front o = 0 ∨ occurrences behind o = 0 := by
  by_cases ho : o = .verbose
  · subst ho
    exact hverbose.imp (occurrences_verbose_of_isLong h.isLong_front)
      (occurrences_verbose_of_isLong h.isLong_behind)
  · by_cases hcommon : o ∈ Level.common
    · have hle := h.occurrences_front_add_kept_le ho
      rw [h.occurrences_behind, h.words.occurrences_of_mem_common hcommon]
      omega
    · exact .inl (h.occurrences_of_not_mem_common hcommon).1

theorem combine_eq :
    combine front (behind ++ a.command.operandWords) = behind ++ a.command.operandWords ++ front := by
  refine combine_eq_append fun w hw w' hw' heq => ?_
  obtain ⟨o, ho⟩ : ∃ o, w.option? = some o := (h.isLong_front w hw).exists_option?
  have hfront : 0 < occurrences front o :=
    List.countP_pos_iff.mpr ⟨w, hw, decide_eq_true ho⟩
  have hbehind : 0 < occurrences (behind ++ a.command.operandWords) o :=
    List.countP_pos_iff.mpr ⟨w', hw', decide_eq_true (heq.trans ho)⟩
  rw [occurrences_append, a.command.occurrences_operandWords] at hbehind
  obtain hzero | hzero := h.occurrences_eq_zero_or hverbose o
  · exact hfront.ne' hzero
  · exact hbehind.ne' hzero

end Verbose

/-- All words but those for the options that concern every command, and then these. -/
theorem perm_commonWords : behind ++ a.command.operandWords ++ front ~
    own ++ a.command.operandWords ++ a.commonWords :=
  calc behind ++ a.command.operandWords ++ front
    _ ~ kept ++ own ++ a.command.operandWords ++ front := (h.level.append_right _).append_right _
    _ = kept ++ (own ++ a.command.operandWords) ++ front := by rw [List.append_assoc kept]
    _ ~ own ++ a.command.operandWords ++ kept ++ front := List.perm_append_comm.append_right _
    _ = own ++ a.command.operandWords ++ (kept ++ front) := List.append_assoc ..
    _ ~ own ++ a.command.operandWords ++ (front ++ kept) := List.perm_append_comm.append_left _
    _ ~ own ++ a.command.operandWords ++ a.commonWords := h.common.append_left _

theorem argumentsOf_eq : argumentsOf (behind ++ a.command.operandWords ++ front) a.command = a := by
  refine argumentsOf_of_perm h.perm_commonWords fun o ho => ?_
  rw [occurrences_append, h.words.occurrences_of_mem_common ho, a.command.occurrences_operandWords]

end Divided

end Arguments

/-! ## 4. Whole command lines -/

/-- All arguments can be written, at least with everything behind the command's word. -/
theorem Arguments.exists_arranged (a : Arguments) : ∃ front behind, a.Arranged front behind := by
  obtain ⟨own, hown⟩ : ∃ own, a.command.Words own := by
    cases a.command with
    | find signature offset t => exact ⟨_, .find signature (.given offset) t⟩
    | masked bytes mask offset t => exact ⟨_, .masked bytes mask (.given offset) t⟩
    | database path lenient sequential t => exact ⟨_, .database path lenient sequential t⟩
    | inspect signature => exact ⟨_, .inspect signature⟩
  have hdivided : a.Divided [] a.commonWords own (a.commonWords ++ own) :=
    ⟨hown, .refl _, .refl _⟩
  exact ⟨[], a.commonWords ++ own, ⟨a.commonWords, own, hdivided⟩, .inl List.not_mem_nil⟩

/-- Arguments that are written as a command line are read back. -/
theorem CommandLine.parse_arranged {a : Arguments} {front behind : List Word}
    (hpaths : ∀ path ∈ a.config.toList ++ a.command.paths, path ≠ "")
    (h : a.Arranged front behind) :
    parse (front.map Word.argument ++
        a.command.name.text :: (behind.map Word.argument ++ a.command.tail)) = .ok a := by
  obtain ⟨⟨kept, own, h⟩, hverbose⟩ := h
  have hread : readWords .front .anything (front.map Word.argument ++
      a.command.name.text :: (behind.map Word.argument ++ a.command.tail)) =
        (front, .command a.command.name (behind.map Word.argument ++ a.command.tail)) := by
    rw [readWords_arguments h.isLong_front, readWords_command, List.append_nil]
  have harguments : argumentsOf (combine front (behind ++ a.command.operandWords)) a.command = a := by
    rw [h.combine_eq hverbose, h.argumentsOf_eq]
  simp only [parse, hread, settled_of_isLong h.isLong_front, h.judge_front hpaths,
    h.readBehind_eq_ok hpaths]
  exact congrArg Except.ok harguments

/-- Values that look like options and commands, and common options on both levels. -/
theorem CommandLine.parse_arranged_find :
    (∀ path ∈ ["-c=db", "find"], path ≠ "") ∧
      parse ["-v", "--config=-c=db", "-v", "find", "--max-matches=18446744073709551615", "--all",
          "--log-level=--json", "--offset=-5", "--no-color", "--input=find", "--", "--help"] =
        .ok {
          logLevel := some "--json", verbosity := 2, config := some "-c=db", noColor := true,
          command := .find "--help" (-5)
            { input := some "find", all := true, maxMatches := some 18446744073709551615 } } := by
  have hpaths : ∀ path ∈ ["-c=db", "find"], path ≠ "" := by decide
  let a : Arguments := {
    logLevel := some "--json", verbosity := 2, config := some "-c=db", noColor := true,
    command := .find "--help" (-5)
      { input := some "find", all := true, maxMatches := some 18446744073709551615 } }
  have harranged : a.Arranged
      [.flag .verbose, .value .config "-c=db" true, .flag .verbose]
      [.value .maxMatches "18446744073709551615" true, .flag .all, .value .logLevel "--json" true,
        .value .offset "-5" true, .flag .noColor, .value .input "find" true] := by
    refine ⟨⟨[.value .logLevel "--json" true, .flag .noColor], _, ⟨.find _ (.given _) _, ?_, ?_⟩⟩,
      .inr (by decide)⟩
    · decide
    · decide
  exact ⟨hpaths, parse_arranged (a := a) hpaths harranged⟩

end ByteScan
