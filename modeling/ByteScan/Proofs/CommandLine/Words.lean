import ByteScan.CommandLine.Word
import Mathlib.Data.List.TakeWhile

/-!
# Words of the command line in long form

An option may be written as one argument: two hyphens and its word, and a value behind an equals
sign. Written so it is read as it was meant wherever it stands, whatever is in its value and whatever
comes behind it.

* `Word.argument`: a word as one argument.
* `Word.IsLong`: an option of a level in long form.
* `follow`: what an argument says, with what is read behind it.

Results:
1. `Shape.of_long`, `Shape.of_long_value`: what such an argument looks like.
2. `readWords_of_long`, `readWords_of_cluster`: one argument. `readWords_arguments`: options in front
   of other arguments.
3. `readWords_command`, `readWords_escape`: how a level ends.
-/

namespace ByteScan.CommandLine

/-! ## Definitions -/

/-- The argument for a word. An option is written in long form, save that the one for the log's level,
which may be repeated, is written by its letter. -/
def Word.argument : Word → String
  | flag .verbose => "-v"
  | flag o => "--" ++ o.longName
  | value o text _ => "--" ++ o.longName ++ "=" ++ text
  | operand text => text

/-- The word is an option of the level, with its value attached if it has one. -/
def Word.IsLong (l : Level) : Word → Prop
  | flag o => o ∈ l.options ∧ o.takesValue = false
  | value o _ attached => o ∈ l.options ∧ o.takesValue = true ∧ attached = true
  | operand _ => False

/-- What an argument says, together with what is read behind it. -/
def follow (l : Level) (rest : List String) : Reading → List Word × Ending
  | (words, none) => (words, .refused)
  | (words, some next) => (words ++ (readWords l next rest).1, (readWords l next rest).2)

/-! ## 1. What an argument looks like -/

theorem Level.long?_longName {l : Level} {o : Opt} (h : o ∈ l.options) :
    l.long? o.longName = some o := by
  have hall : ∀ l : Level, ∀ o ∈ l.options, l.long? o.longName = some o := by
    rintro (_ | _ | _ | _ | _) <;> decide
  exact hall l o h

namespace Shape

theorem longName_ne_nil (o : Opt) : o.longName.toList ≠ [] := by
  cases o <;> decide

theorem equals_not_mem_longName (o : Opt) : ∀ c ∈ o.longName.toList, (c != '=') = true :=
  List.all_eq_true.mp (by cases o <;> rfl)

section Long

variable {name : List Char} (hne : name ≠ []) (hname : ∀ c ∈ name, (c != '=') = true)
include hne hname

theorem ofChars_long : ofChars ('-' :: '-' :: name) = long (String.ofList name) none := by
  cases name with
  | nil => exact absurd rfl hne
  | cons c cs =>
    rw [ofChars, List.takeWhile_eq_self_iff.mpr hname, List.dropWhile_eq_nil_iff.mpr hname]
    exact fun h => nomatch h

theorem ofChars_long_value (text : List Char) :
    ofChars ('-' :: '-' :: (name ++ '=' :: text)) =
      long (String.ofList name) (some (String.ofList text)) := by
  cases name with
  | nil => exact absurd rfl hne
  | cons c cs =>
    rw [ofChars, List.takeWhile_append_of_pos hname, List.dropWhile_append_of_pos hname,
      List.takeWhile_cons_of_neg (by decide), List.dropWhile_cons_of_neg (by decide),
      List.append_nil]
    exact fun h => nomatch h

end Long

theorem of_long (o : Opt) : Shape.of ("--" ++ o.longName) = long o.longName none := by
  have hchars : ("--" ++ o.longName).toList = '-' :: '-' :: o.longName.toList := by
    rw [String.toList_append]
    rfl
  unfold Shape.of
  rw [hchars, ofChars_long (longName_ne_nil o) (equals_not_mem_longName o), String.ofList_toList]

theorem of_long_value (o : Opt) (text : String) :
    Shape.of ("--" ++ o.longName ++ "=" ++ text) = long o.longName (some text) := by
  have hchars : ("--" ++ o.longName ++ "=" ++ text).toList =
      '-' :: '-' :: (o.longName.toList ++ '=' :: text.toList) := by
    simp [String.toList_append]
  unfold Shape.of
  rw [hchars, ofChars_long_value (longName_ne_nil o) (equals_not_mem_longName o),
    String.ofList_toList, String.ofList_toList]

end Shape

/-! ## 2. Options in front of other arguments -/

section Options

variable {l : Level}

section Argument

variable {argument : String}

theorem readWords_of_long {name : String} {value : Option String}
    (h : Shape.of argument = .long name value) (rest : List String) :
    readWords l .anything (argument :: rest) = follow l rest (readLong l name value) := by
  rw [readWords]
  simp only [h]
  rfl

theorem readWords_of_cluster {letters : List Char} (h : Shape.of argument = .cluster letters)
    (rest : List String) :
    readWords l .anything (argument :: rest) = follow l rest (readLetters l letters) := by
  rw [readWords]
  simp only [h]
  rfl

end Argument

theorem readWords_long {name : String} {value : Option String} {argument : String}
    (hshape : Shape.of argument = .long name value) {w : Word}
    (hread : readLong l name value = ([w], some .anything)) (rest : List String) :
    readWords l .anything (argument :: rest) =
      (w :: (readWords l .anything rest).1, (readWords l .anything rest).2) := by
  rw [readWords_of_long hshape, hread]
  rfl

theorem short?_v (l : Level) : l.short? 'v' = some .verbose := by
  rcases l with _ | _ | _ | _ | _ <;> rfl

theorem readWords_verbose (rest : List String) :
    readWords l .anything ("-v" :: rest) =
      (.flag .verbose :: (readWords l .anything rest).1, (readWords l .anything rest).2) := by
  have hshape : Shape.of "-v" = .cluster ['v'] := rfl
  have hread : readLetters l ['v'] = ([.flag .verbose], some .anything) := by
    rw [readLetters, short?_v]
    rfl
  rw [readWords_of_cluster hshape, hread]
  rfl

/-- An option in long form is read as it was meant. -/
theorem readWords_argument {w : Word} (h : w.IsLong l) (rest : List String) :
    readWords l .anything (w.argument :: rest) =
      (w :: (readWords l .anything rest).1, (readWords l .anything rest).2) := by
  cases w with
  | flag o =>
    obtain ⟨ho, hvalue⟩ := h
    by_cases hverbose : o = .verbose
    · subst hverbose
      exact readWords_verbose rest
    · have hargument : (Word.flag o).argument = "--" ++ o.longName := by
        cases o <;> first | rfl | exact absurd rfl hverbose
      rw [hargument]
      refine readWords_long (Shape.of_long o) ?_ rest
      unfold readLong
      simp only [Level.long?_longName ho]
      exact if_neg (Bool.eq_false_iff.mp hvalue)
  | value o text attached =>
    obtain ⟨ho, hvalue, rfl⟩ := h
    refine readWords_long (Shape.of_long_value o text) ?_ rest
    unfold readLong
    simp only [Level.long?_longName ho]
    exact if_pos hvalue
  | operand text => exact h.elim

theorem readWords_arguments {words : List Word} (h : ∀ w ∈ words, w.IsLong l) (rest : List String) :
    readWords l .anything (words.map Word.argument ++ rest) =
      (words ++ (readWords l .anything rest).1, (readWords l .anything rest).2) := by
  induction words with
  | nil => rfl
  | cons w words ih =>
    obtain ⟨hw, hwords⟩ := List.forall_mem_cons.mp h
    rw [List.map_cons, List.cons_append, readWords_argument hw, ih hwords]
    rfl

end Options

/-! ## 3. How a level ends -/

theorem readWords_command (c : CommandName) (rest : List String) :
    readWords .front .anything (c.text :: rest) = ([], .command c rest) := by
  cases c <;> rfl

theorem readWords_nil (l : Level) : readWords l .anything [] = ([], .complete) := by
  rw [readWords]

theorem shape_escape : Shape.of "--" = .escape :=
  rfl

theorem readWords_escape_cons (l : Level) (rest : List String) :
    readWords l .anything ("--" :: rest) = readWords l .operands rest := by
  rw [readWords]
  simp only [shape_escape]

/-- Behind two hyphens by themselves an argument is an operand, whatever it looks like. -/
theorem readWords_escape (c : CommandName) (text : String) :
    readWords (.behind c) .anything ["--", text] = ([.operand text], .complete) := by
  rw [readWords_escape_cons, readWords, if_neg (by simp), readWords]

end ByteScan.CommandLine
