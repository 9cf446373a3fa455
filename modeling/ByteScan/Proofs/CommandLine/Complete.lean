import ByteScan.Logged
import ByteScan.Proofs.CommandLine.Written

/-!
# Complete arguments

Arguments are complete on a level if they can be read there by themselves, so that the last of them is
no option whose value is still to come, and if `--` is not among them. What stands behind complete
arguments is read as if it stood alone.

* `Complete`: arguments that are complete on a level.
* `Expects.IsOpen`: what may come next on a level before `--`.

Results:
1. `readWords_cons_cases`: all that one argument can do.
2. `readWords_append`: arguments behind complete ones; `option?_of_mem_readWords`: the options that are
   read on a level.
3. `parse_append_command`: a command line with complete arguments in front of the command's word;
   `exists_complete`: every command line that is carried out is one.
-/

namespace ByteScan.CommandLine

/-! ## Definitions -/

/-- The arguments are read to their end on the level, and none of them is `--`. -/
structure Complete (l : Level) (arguments : List String) : Prop where
  noEscape : "--" ∉ arguments
  ending : (readWords l .anything arguments).2 = .complete

/-- What may come next on the level as long as there was no `--`. -/
def Expects.IsOpen (l : Level) : Expects → Prop
  | anything => True
  | valueOf o => o ∈ l.options
  | operands => False

/-- The words give options of the level only. -/
def GiveOptionsOf (l : Level) (words : List Word) : Prop :=
  ∀ w ∈ words, ∀ o, w.option? = some o → o ∈ l.options

/-- What an argument does to the reading of a level. -/
inductive Effect (l : Level) (e : Expects) (argument : String) : Prop
  /-- From here on there are operands only. -/
  | escape (he : e = .anything) (h : argument = "--")
  /-- The argument says some words, and reading goes on behind it. -/
  | words (words : List Word) (next : Expects) (hwords : GiveOptionsOf l words) (hnext : next.IsOpen l)
      (hescape : argument = "--" → e = .valueOf .offset)
      (h : ∀ rest, readWords l e (argument :: rest) =
        (words ++ (readWords l next rest).1, (readWords l next rest).2))
  /-- The argument has no place there. -/
  | refused (words : List Word) (hwords : GiveOptionsOf l words)
      (h : ∀ rest, readWords l e (argument :: rest) = (words, .refused))
  /-- The argument is a command's word. -/
  | command (name : CommandName) (he : e = .anything) (hname : argument = name.text)
      (h : ∀ rest, readWords l e (argument :: rest) = ([], .command name rest))
  /-- The argument asks for help on what stands behind it. -/
  | topics (h : ∀ rest, readWords l e (argument :: rest) = ([], .topics rest))

/-! ## 1. One argument -/

section Argument

variable {l : Level} {e : Expects} {argument : String}

theorem Level.mem_options_of_short? {letter : Char} {o : Opt} (h : l.short? letter = some o) :
    o ∈ l.options :=
  List.mem_of_find?_eq_some h

theorem Level.mem_options_of_long? {word : String} {o : Opt} (h : l.long? word = some o) :
    o ∈ l.options :=
  List.mem_of_find?_eq_some h

theorem GiveOptionsOf.nil : GiveOptionsOf l [] :=
  List.forall_mem_nil _

theorem GiveOptionsOf.append {words words' : List Word} (h : GiveOptionsOf l words)
    (h' : GiveOptionsOf l words') : GiveOptionsOf l (words ++ words') :=
  List.forall_mem_append.mpr ⟨h, h'⟩

theorem giveOptionsOf_flag {o : Opt} (h : o ∈ l.options) : GiveOptionsOf l [.flag o] := by
  rintro w hw o' ho'
  obtain rfl := List.mem_singleton.mp hw
  exact Option.some.inj ho' ▸ h

theorem giveOptionsOf_value {o : Opt} (h : o ∈ l.options) (text : String) (attached : Bool) :
    GiveOptionsOf l [.value o text attached] := by
  rintro w hw o' ho'
  obtain rfl := List.mem_singleton.mp hw
  exact Option.some.inj ho' ▸ h

theorem giveOptionsOf_operands (texts : List String) : GiveOptionsOf l (texts.map .operand) := by
  rintro w hw o ho
  obtain ⟨text, -, rfl⟩ := List.mem_map.mp hw
  cases ho

/-- Letters say options of the level, and do not end in operands only. -/
theorem readLetters_spec (l : Level) (letters : List Char) :
    GiveOptionsOf l (readLetters l letters).1 ∧
      ∀ next ∈ (readLetters l letters).2, next.IsOpen l := by
  induction letters with
  | nil => exact ⟨.nil, by rintro next ⟨⟩; trivial⟩
  | cons c cs ih =>
    rw [readLetters]
    cases ho : l.short? c with
    | none => exact ⟨.nil, by rintro next ⟨⟩⟩
    | some o =>
      have hmem := Level.mem_options_of_short? ho
      by_cases hvalue : o.takesValue = true
      · simp only [hvalue, if_true]
        cases attached? cs with
        | none => exact ⟨.nil, by rintro next ⟨⟩; exact hmem⟩
        | some text => exact ⟨giveOptionsOf_value hmem text true, by rintro next ⟨⟩; trivial⟩
      · simp only [hvalue]
        exact ⟨(giveOptionsOf_flag hmem).append ih.1, ih.2⟩

theorem readLong_spec (l : Level) (name : String) (value : Option String) :
    GiveOptionsOf l (readLong l name value).1 ∧
      ∀ next ∈ (readLong l name value).2, next.IsOpen l := by
  unfold readLong
  cases ho : l.long? name with
  | none => exact ⟨.nil, by rintro next ⟨⟩⟩
  | some o =>
    have hmem := Level.mem_options_of_long? ho
    by_cases hvalue : o.takesValue = true <;> cases value <;> simp only [hvalue, if_true]
    · exact ⟨.nil, by rintro next ⟨⟩; exact hmem⟩
    · exact ⟨giveOptionsOf_value hmem _ true, by rintro next ⟨⟩; trivial⟩
    · exact ⟨giveOptionsOf_flag hmem, by rintro next ⟨⟩; trivial⟩
    · exact ⟨.nil, by rintro next ⟨⟩⟩

/-- An argument that is read by itself says its words, or is refused. -/
theorem effect_of_reading {reading : Reading}
    (h : ∀ rest, readWords l e (argument :: rest) = follow l rest reading)
    (hspec : GiveOptionsOf l reading.1 ∧ ∀ next ∈ reading.2, next.IsOpen l)
    (hescape : argument ≠ "--") : Effect l e argument := by
  obtain ⟨words, next | next⟩ := reading
  · exact .refused words hspec.1 h
  · exact .words words next hspec.1 (hspec.2 next rfl) (absurd · hescape) h

theorem eq_of_shape_escape (h : Shape.of argument = .escape) : argument = "--" := by
  unfold Shape.of Shape.ofChars at h
  split at h
  · next hchars => exact String.toList_inj.mp hchars
  · cases h
  · cases h
  · cases h

theorem CommandName.text_of_ofText? {name : CommandName} (h : CommandName.ofText? argument = some name) :
    argument = name.text := by
  have hfound := List.find?_some h
  exact (of_decide_eq_true hfound).symm

theorem eq_offset_of_takesHyphens {o : Opt} (h : o.takesHyphens = true) : o = .offset := by
  cases o <;> first | rfl | cases h

/-- All that one argument can do before `--`. -/
theorem readWords_cons_cases (he : e.IsOpen l) (argument : String) : Effect l e argument := by
  cases e with
  | operands => exact he.elim
  | valueOf o =>
    by_cases hplain : (o.takesHyphens || Shape.of argument = .plain) = true
    · refine .words [.value o argument false] .anything (giveOptionsOf_value he _ _) trivial
        (fun hargument => ?_) fun rest => ?_
      · rw [hargument, shape_escape, Bool.or_eq_true] at hplain
        exact congrArg _ (eq_offset_of_takesHyphens (hplain.resolve_right (by decide)))
      · rw [readWords, if_pos hplain]
        rfl
    · refine .refused [] .nil fun rest => ?_
      rw [readWords, if_neg hplain]
  | anything =>
    have hescape : Shape.of argument ≠ .escape → argument ≠ "--" := by
      rintro hne rfl
      exact hne shape_escape
    cases hshape : Shape.of argument with
    | escape => exact .escape rfl (eq_of_shape_escape hshape)
    | long name value =>
      exact effect_of_reading (readWords_of_long hshape) (readLong_spec l name value)
        (hescape (by simp [hshape]))
    | cluster letters =>
      exact effect_of_reading (readWords_of_cluster hshape) (readLetters_spec l letters)
        (hescape (by simp [hshape]))
    | plain =>
      have hescape := hescape (by simp [hshape])
      cases l with
      | behind c =>
        refine .words [.operand argument] .anything (giveOptionsOf_operands [argument]) trivial
          (absurd · hescape) fun rest => ?_
        rw [readWords]
        simp only [hshape, endingAt?]
      | front =>
        by_cases hhelp : argument = helpWord
        · refine .topics fun rest => ?_
          rw [readWords]
          simp only [hshape, endingAt?, if_pos hhelp]
        · cases hname : CommandName.ofText? argument with
          | some name =>
            refine .command name rfl (CommandName.text_of_ofText? hname) fun rest => ?_
            rw [readWords]
            simp only [hshape, endingAt?, if_neg hhelp, hname]
          | none =>
            refine .refused [] .nil fun rest => ?_
            rw [readWords]
            simp only [hshape, endingAt?, if_neg hhelp, hname]

end Argument

/-! ## 2. Arguments behind complete ones -/

section Arguments

variable {l : Level} {e : Expects} {arguments : List String}

/-- The induction is on the arguments in front, with anything that may come next there. -/
theorem readWords_append_of_isOpen (he : e.IsOpen l) (hescape : "--" ∉ arguments)
    (h : (readWords l e arguments).2 = .complete) (rest : List String) :
    readWords l e (arguments ++ rest) =
      ((readWords l e arguments).1 ++ (readWords l .anything rest).1,
        (readWords l .anything rest).2) := by
  induction arguments generalizing e with
  | nil =>
    cases e with
    | anything => rw [readWords_nil]; rfl
    | valueOf o => rw [readWords] at h; cases h
    | operands => exact he.elim
  | cons argument arguments ih =>
    rw [List.mem_cons, not_or] at hescape
    cases readWords_cons_cases he argument with
    | escape _ hargument => exact absurd hargument.symm hescape.1
    | words words next _ hnext _ hread =>
      rw [hread] at h
      rw [List.cons_append, hread, hread, ih hnext hescape.2 h, List.append_assoc]
    | refused words _ hread => rw [hread] at h; cases h
    | command name _ _ hread => rw [hread] at h; cases h
    | topics hread => rw [hread] at h; cases h

/-- Behind complete arguments the others are read as if they stood alone. -/
theorem readWords_append (h : Complete l arguments) (rest : List String) :
    readWords l .anything (arguments ++ rest) =
      ((readWords l .anything arguments).1 ++ (readWords l .anything rest).1,
        (readWords l .anything rest).2) :=
  readWords_append_of_isOpen (e := .anything) trivial h.noEscape h.ending rest

/-- Behind `--` there are no options. -/
theorem readWords_operands (l : Level) (arguments : List String) :
    ∃ texts : List String, (readWords l .operands arguments).1 = texts.map .operand := by
  induction arguments with
  | nil => exact ⟨[], by rw [readWords]; rfl⟩
  | cons argument arguments ih =>
    obtain ⟨texts, htexts⟩ := ih
    rw [readWords]
    by_cases hfront : l = .front
    · rw [if_pos hfront]
      exact ⟨[], rfl⟩
    · rw [if_neg hfront]
      exact ⟨argument :: texts, congrArg (.operand argument :: ·) htexts⟩

theorem giveOptionsOf_readWords (he : e.IsOpen l) (arguments : List String) :
    GiveOptionsOf l (readWords l e arguments).1 := by
  induction arguments generalizing e with
  | nil => cases e <;> rw [readWords] <;> exact .nil
  | cons argument arguments ih =>
    cases readWords_cons_cases he argument with
    | escape he hargument =>
      obtain ⟨texts, htexts⟩ := readWords_operands l arguments
      rw [he, hargument, readWords_escape_cons, htexts]
      exact giveOptionsOf_operands texts
    | words words next hwords hnext _ hread =>
      rw [hread]
      exact hwords.append (ih hnext)
    | refused words hwords hread =>
      rw [hread]
      exact hwords
    | command name _ _ hread =>
      rw [hread]
      exact .nil
    | topics hread =>
      rw [hread]
      exact .nil

/-- The words of a level give options of the level only. -/
theorem option?_of_mem_readWords {w : Word} (hw : w ∈ (readWords l .anything arguments).1) {o : Opt}
    (ho : w.option? = some o) : o ∈ l.options :=
  giveOptionsOf_readWords (e := .anything) trivial arguments w hw o ho

end Arguments

/-! ## 3. Whole command lines -/

section Parse

variable {front rest : List String} {c : CommandName}

theorem readWords_append_command (h : Complete .front front) (c : CommandName) (rest : List String) :
    readWords .front .anything (front ++ c.text :: rest) =
      ((readWords .front .anything front).1, .command c rest) := by
  rw [readWords_append h, readWords_command, List.append_nil]

/-- Complete arguments in front of a command's word, and anything behind it. -/
theorem parse_append_command (h : Complete .front front) (c : CommandName) (rest : List String) :
    parse (front ++ c.text :: rest) = (do
      judge .front (settled (readWords .front .anything front).1)
      let (behind, command) ← readBehind c rest
      judge .front (readWords .front .anything front).1
      return argumentsOf (combine (readWords .front .anything front).1 behind) command) := by
  rw [parse, readWords_append_command h]

/-- The arguments in front of the one at which the level ends are complete. -/
theorem exists_complete_of_isOpen {e : Expects} (he : e.IsOpen .front) {arguments : List String}
    {words : List Word} (h : readWords .front e arguments = (words, .command c rest)) :
    ∃ front, arguments = front ++ c.text :: rest ∧ "--" ∉ front ∧
      (readWords .front e front).2 = .complete := by
  induction arguments generalizing e words with
  | nil => cases e <;> rw [readWords] at h <;> cases h
  | cons argument arguments ih =>
    cases readWords_cons_cases he argument with
    | escape he hargument =>
      rw [he, hargument, readWords_escape_cons] at h
      cases arguments <;> rw [readWords] at h <;> cases h
    | words words next _ hnext hoffset hread =>
      rw [hread] at h
      have hending : (readWords .front next arguments).2 = .command c rest := (Prod.mk.inj h).2
      obtain ⟨front, harguments, hescape, hcomplete⟩ := ih hnext (Prod.ext rfl hending)
      refine ⟨argument :: front, congrArg (argument :: ·) harguments, ?_, ?_⟩
      · -- Only an offset takes `--` for its value, and there is none on this level.
        rw [List.mem_cons, not_or]
        refine ⟨fun hargument => ?_, hescape⟩
        rw [hoffset hargument.symm] at he
        exact absurd he (by decide : Opt.offset ∉ Level.front.options)
      · rw [hread]
        exact hcomplete
    | refused words _ hread => rw [hread] at h; cases h
    | command name he hname hread =>
      rw [hread] at h
      cases h
      exact ⟨[], congrArg (· :: rest) hname, List.not_mem_nil, by rw [he, readWords_nil]⟩
    | topics hread => rw [hread] at h; cases h

theorem readBehind_eq_ok {arguments : List String} {words : List Word} {command : Command} :
    readBehind c arguments = .ok (words, command) ↔
      readWords (.behind c) .anything arguments = (words, .complete) ∧
        judge (.behind c) words = .ok () ∧ commandOf? words c = some command := by
  cases hread : readWords (.behind c) .anything arguments with
  | mk words' ending =>
    simp only [readBehind, hread, Result.bind_eq_ok]
    constructor
    · rintro ⟨⟨⟩, hjudge, h⟩
      split at h
      · next hcommand =>
        cases h
        exact ⟨rfl, hjudge, hcommand⟩
      · cases h
    · rintro ⟨⟨⟩, hjudge, hcommand⟩
      refine ⟨(), hjudge, ?_⟩
      rw [hcommand]
      rfl

theorem name_of_commandOf? {words : List Word} {command : Command}
    (h : commandOf? words c = some command) : command.name = c := by
  cases c with
  | find =>
    obtain ⟨signature, -, hcommand⟩ := Option.bind_eq_some_iff.mp h
    exact Option.some.inj hcommand ▸ rfl
  | masked =>
    obtain ⟨bytes, -, hmask⟩ := Option.bind_eq_some_iff.mp h
    obtain ⟨mask, -, hcommand⟩ := Option.bind_eq_some_iff.mp hmask
    exact Option.some.inj hcommand ▸ rfl
  | database =>
    obtain ⟨path, -, hcommand⟩ := Option.bind_eq_some_iff.mp h
    exact Option.some.inj hcommand ▸ rfl
  | inspect =>
    obtain ⟨signature, -, hcommand⟩ := Option.bind_eq_some_iff.mp h
    exact Option.some.inj hcommand ▸ rfl

/-- What there is to a command line that is carried out, if it has complete arguments in front of the
command's word. -/
theorem parse_eq_ok (h : Complete .front front) {a : Arguments} :
    parse (front ++ c.text :: rest) = .ok a ↔
      judge .front (settled (readWords .front .anything front).1) = .ok () ∧
        ∃ behind command, readBehind c rest = .ok (behind, command) ∧
          judge .front (readWords .front .anything front).1 = .ok () ∧
            argumentsOf (combine (readWords .front .anything front).1 behind) command = a := by
  rw [parse_append_command h]
  simp only [Result.bind_eq_ok, Prod.exists]
  constructor
  · rintro ⟨⟨⟩, hsettled, behind, command, hbehind, ⟨⟩, hfront, ⟨⟩⟩
    exact ⟨hsettled, behind, command, hbehind, hfront, rfl⟩
  · rintro ⟨hsettled, behind, command, hbehind, hfront, rfl⟩
    exact ⟨(), hsettled, behind, command, hbehind, (), hfront, rfl⟩

/-- Every command line that is carried out has complete arguments in front of its command's word. -/
theorem exists_complete {arguments : List String} {a : Arguments} (h : parse arguments = .ok a) :
    ∃ front rest, arguments = front ++ a.command.name.text :: rest ∧ Complete .front front := by
  cases hread : readWords .front .anything arguments with
  | mk words ending =>
    rw [parse, hread, Result.bind_eq_ok] at h
    obtain ⟨-, -, h⟩ := h
    cases ending with
    | complete => cases h
    | refused => cases h
    | topics rest => cases h
    | command c rest =>
      simp only [Result.bind_eq_ok, Prod.exists] at h
      obtain ⟨behind, command, hbehind, -, -, ⟨⟩⟩ := h
      obtain ⟨-, -, hcommand⟩ := readBehind_eq_ok.mp hbehind
      obtain ⟨front, harguments, hescape, hending⟩ :=
        exists_complete_of_isOpen (e := .anything) trivial hread
      refine ⟨front, rest, ?_, hescape, hending⟩
      show arguments = front ++ command.name.text :: rest
      rw [name_of_commandOf? hcommand]
      exact harguments

end Parse

end ByteScan.CommandLine
