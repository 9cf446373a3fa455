import ByteScan.Proofs.CommandLine.Complete
import ByteScan.Proofs.CommandLine.RoundTrip
import Mathlib.Algebra.Ring.Int.Defs

/-!
# An offset among other arguments

An offset may be written in five ways: behind its letter or its long word, as an argument of its own,
directly behind the letter, or behind an equals sign. Negative numbers look like letters behind a
hyphen, but an offset takes the argument behind it whatever it looks like. So an offset can be put
wherever the arguments in front of it are complete, and nothing else changes. A number that does not
fit in 64 bits with a sign is refused.

* `offsetSpellings`: the ways to write an offset.
* `Command.withOffset`, `Command.offset?`: the offset of a command.

Results:
1. `readWords_offset`: an offset is read as one word, and what is behind it as if it stood alone.
2. `acceptable_inserted`, `commandOf?_inserted`, `argumentsOf_inserted` and the like: words with one
   for the offset among them.
3. `parse_offset`: whole command lines.
-/

namespace ByteScan

/-! ## Definitions -/

/-- The command with another offset, if it takes one. -/
def Command.withOffset (offset : Int64) : Command → Command
  | .find signature _ target => .find signature offset target
  | .masked bytes mask _ target => .masked bytes mask offset target
  | .database path lenient sequential target => .database path lenient sequential target
  | .inspect signature => .inspect signature

/-- The offset of a command, if it takes one. -/
def Command.offset? : Command → Option Int64
  | .find _ offset _ | .masked _ _ offset _ => some offset
  | .database .. | .inspect _ => none

theorem Command.offset?_withOffset (command : Command)
    (h : command.name = .find ∨ command.name = .masked) (offset : Int64) :
    (command.withOffset offset).offset? = some offset := by
  cases command with
  | find => rfl
  | masked => rfl
  | database => rcases h with h | h <;> cases h
  | inspect => rcases h with h | h <;> cases h

namespace CommandLine

/-- The ways to write an offset, each with the arguments that it takes. -/
def offsetSpellings (text : String) : List (List String) :=
  [["-o", text], ["-o" ++ text], ["-o=" ++ text], ["--offset", text], ["--offset=" ++ text]]

/-! ## 1. Reading an offset -/

section Read

variable {c : CommandName} {text : String}

/-- Text that is attached to a letter is all of the value, unless it begins with an equals sign. -/
theorem attached?_eq_some (hne : text ≠ "") (hequals : text.toList.head? ≠ some '=') :
    attached? text.toList = some text := by
  unfold attached?
  split
  · next hnil => exact absurd (String.toList_eq_nil_iff.mp hnil) hne
  · next heq =>
    rw [heq] at hequals
    exact absurd rfl hequals
  · rw [String.ofList_toList]

section Letter

variable (hc : c = .find ∨ c = .masked)
include hc

theorem short?_o : (Level.behind c).short? 'o' = some .offset := by
  rcases hc with rfl | rfl <;> rfl

theorem long?_offset : (Level.behind c).long? Opt.offset.longName = some .offset :=
  Level.long?_longName (by rcases hc with rfl | rfl <;> decide)

/-- The letter for an offset, and what is attached to it. -/
theorem readLetters_o (cs : List Char) : readLetters (.behind c) ('o' :: cs) =
    match attached? cs with
    | none => ([], some (.valueOf .offset))
    | some text => ([.value .offset text true], some .anything) := by
  rw [readLetters, short?_o hc]
  rfl

end Letter

/-- An offset takes the argument behind it, whatever it looks like. -/
theorem readWords_valueOf_offset (text : String) (rest : List String) :
    readWords (.behind c) (.valueOf .offset) (text :: rest) =
      (.value .offset text false :: (readWords (.behind c) .anything rest).1,
        (readWords (.behind c) .anything rest).2) := by
  rw [readWords]
  exact if_pos rfl

/-- An offset is one word, in whatever way it is written, and what is behind it is read as if it stood
alone. -/
theorem readWords_offset (hc : c = .find ∨ c = .masked) (hne : text ≠ "")
    (hequals : text.toList.head? ≠ some '=') {spelling : List String}
    (h : spelling ∈ offsetSpellings text) :
    ∃ attached, ∀ rest, readWords (.behind c) .anything (spelling ++ rest) =
      (.value .offset text attached :: (readWords (.behind c) .anything rest).1,
        (readWords (.behind c) .anything rest).2) := by
  simp only [offsetSpellings, List.mem_cons, List.not_mem_nil, or_false] at h
  -- The value stands behind the letter or the name, apart from it or attached to it.
  rcases h with rfl | rfl | rfl | rfl | rfl
  · refine ⟨false, fun rest => ?_⟩
    have hshape : Shape.of "-o" = .cluster ['o'] := rfl
    rw [List.cons_append, readWords_of_cluster hshape, readLetters_o hc]
    exact readWords_valueOf_offset text rest
  · refine ⟨true, fun rest => ?_⟩
    have hshape : Shape.of ("-o" ++ text) = .cluster ('o' :: text.toList) := by
      rw [Shape.of, String.toList_append]
      rfl
    rw [List.cons_append, readWords_of_cluster hshape, readLetters_o hc,
      attached?_eq_some hne hequals]
    rfl
  · refine ⟨true, fun rest => ?_⟩
    have hshape : Shape.of ("-o=" ++ text) = .cluster ('o' :: '=' :: text.toList) := by
      rw [Shape.of, String.toList_append]
      rfl
    rw [List.cons_append, readWords_of_cluster hshape, readLetters_o hc, attached?,
      String.ofList_toList]
    rfl
  · refine ⟨false, fun rest => ?_⟩
    have hread : readLong (.behind c) Opt.offset.longName none = ([], some (.valueOf .offset)) := by
      unfold readLong
      rw [long?_offset hc]
      rfl
    have hshape : Shape.of "--offset" = .long Opt.offset.longName none := Shape.of_long .offset
    rw [List.cons_append, readWords_of_long hshape, hread]
    exact readWords_valueOf_offset text rest
  · refine ⟨true, fun rest => ?_⟩
    have hread : readLong (.behind c) Opt.offset.longName (some text) =
        ([.value .offset text true], some .anything) := by
      unfold readLong
      rw [long?_offset hc]
      rfl
    have hshape : Shape.of ("--offset=" ++ text) = .long Opt.offset.longName (some text) :=
      Shape.of_long_value .offset text
    rw [List.cons_append, readWords_of_long hshape, hread]
    rfl

end Read

/-! ## 2. Words with one for the offset among them -/

section Inserted

variable (ws ws' : List Word) {o o' : Opt} (text : String) (attached : Bool)

theorem occurrences_inserted : occurrences (ws ++ .value o text attached :: ws') o' =
    occurrences (ws ++ ws') o' + if o = o' then 1 else 0 := by
  rw [occurrences_of_perm List.perm_middle, occurrences, List.countP_cons]
  simp [occurrences, Word.option?]

theorem operands_inserted :
    operands (ws ++ .value o text attached :: ws') = operands (ws ++ ws') := by
  rw [operands_append, operands_append]
  rfl

theorem values_inserted (h : o ≠ o') :
    values (ws ++ .value o text attached :: ws') o' = values (ws ++ ws') o' := by
  have hnone : (Word.value o text attached).valueOf? o' = none := if_neg h
  rw [values_append, values_append]
  exact congrArg (values ws o' ++ ·) (List.filterMap_cons_none hnone)

theorem valueOf?_inserted (h : o ≠ o') :
    valueOf? (ws ++ .value o text attached :: ws') o' = valueOf? (ws ++ ws') o' := by
  rw [valueOf?_eq_head?, valueOf?_eq_head?, values_inserted ws ws' text attached h]

theorem given_inserted (h : o ≠ o') :
    given (ws ++ .value o text attached :: ws') o' = given (ws ++ ws') o' := by
  rw [given_eq_decide, given_eq_decide, occurrences_inserted, if_neg h, Nat.add_zero]

/-- The only value that words give to an option. -/
theorem valueOf?_inserted_self (h : occurrences (ws ++ ws') o = 0) :
    valueOf? (ws ++ .value o text attached :: ws') o = some text := by
  rw [occurrences_append, Nat.add_eq_zero_iff] at h
  have hsome : (Word.value o text attached).valueOf? o = some text := if_pos rfl
  rw [valueOf?_eq_head?, values_append, values_of_occurrences h.1, values,
    List.filterMap_cons_some hsome]
  rfl

/-- One more option may stand among the words of a level if it was not given before and its value can
be read. -/
theorem acceptable_inserted {l : Level} (h : occurrences (ws ++ ws') o = 0) :
    acceptable l (ws ++ .value o text attached :: ws') = true ↔
      o.admits text = true ∧ acceptable l (ws ++ ws') = true := by
  have honce : ∀ o', (o'.repeats || occurrences (ws ++ .value o text attached :: ws') o' ≤ 1) =
      (o'.repeats || occurrences (ws ++ ws') o' ≤ 1) := by
    intro o'
    rw [occurrences_inserted]
    by_cases ho : o = o'
    · subst ho
      rw [h, if_pos rfl]
      rfl
    · rw [if_neg ho, Nat.add_zero]
  simp only [acceptable, honce, operands_inserted, Bool.and_eq_true, List.all_append, List.all_cons,
    Word.admitted]
  tauto

end Inserted

section Offset

variable {ws ws' : List Word} {text : String} {attached : Bool}

theorem targetOf_inserted :
    targetOf (ws ++ .value .offset text attached :: ws') = targetOf (ws ++ ws') := by
  simp only [targetOf, valueOf?_inserted ws ws' text attached (by decide : Opt.offset ≠ .input),
    valueOf?_inserted ws ws' text attached (by decide : Opt.offset ≠ .maxMatches),
    given_inserted ws ws' text attached (by decide : Opt.offset ≠ .all)]

theorem offsetOf_inserted {offset : Int64} (h : occurrences (ws ++ ws') .offset = 0)
    (hoffset : Text.int64? text = some offset) :
    offsetOf (ws ++ .value .offset text attached :: ws') = offset := by
  rw [offsetOf, valueOf?_inserted_self ws ws' text attached h, Option.bind_some, hoffset]
  rfl

/-- The words describe the same command, with the offset. -/
theorem commandOf?_inserted {c : CommandName} (hc : c = .find ∨ c = .masked) {offset : Int64}
    {command : Command} (h : occurrences (ws ++ ws') .offset = 0)
    (hoffset : Text.int64? text = some offset) (hcommand : commandOf? (ws ++ ws') c = some command) :
    commandOf? (ws ++ .value .offset text attached :: ws') c = some (command.withOffset offset) := by
  rcases hc with rfl | rfl
  · obtain ⟨signature, hsignature, hcommand⟩ := Option.bind_eq_some_iff.mp hcommand
    obtain rfl := Option.some.inj hcommand
    rw [commandOf?, operands_inserted, hsignature, offsetOf_inserted h hoffset, targetOf_inserted]
    rfl
  · obtain ⟨bytes, hbytes, hrest⟩ := Option.bind_eq_some_iff.mp hcommand
    obtain ⟨mask, hmask, hcommand⟩ := Option.bind_eq_some_iff.mp hrest
    obtain rfl := Option.some.inj hcommand
    rw [commandOf?, valueOf?_inserted ws ws' text attached (by decide : Opt.offset ≠ .bytes), hbytes,
      valueOf?_inserted ws ws' text attached (by decide : Opt.offset ≠ .mask), hmask,
      offsetOf_inserted h hoffset, targetOf_inserted]
    rfl

/-- The words of both levels, if there is no offset on the first. -/
theorem combine_inserted {front : List Word} (h : ∀ w ∈ front, w.option? ≠ some .offset) :
    combine front (ws ++ .value .offset text attached :: ws') =
      ws ++ .value .offset text attached :: (ws' ++ front.filter fun w =>
        (ws ++ ws').all fun w' => w'.option? ≠ w.option?) := by
  have hkept : ∀ w ∈ front,
      ((ws ++ .value .offset text attached :: ws').all fun w' => w'.option? ≠ w.option?) =
        (ws ++ ws').all fun w' => w'.option? ≠ w.option? := by
    intro w hw
    have hne : decide ((Word.value .offset text attached).option? ≠ w.option?) = true :=
      decide_eq_true (h w hw).symm
    rw [List.all_append, List.all_append, List.all_cons, hne, Bool.true_and]
  rw [combine, List.filter_congr hkept, List.append_assoc]
  rfl

theorem argumentsOf_inserted (command : Command) :
    argumentsOf (ws ++ .value .offset text attached :: ws') command =
      argumentsOf (ws ++ ws') command := by
  simp only [argumentsOf, occurrences_inserted,
    valueOf?_inserted ws ws' text attached (by decide : Opt.offset ≠ .logLevel),
    valueOf?_inserted ws ws' text attached (by decide : Opt.offset ≠ .config),
    given_inserted ws ws' text attached (by decide : Opt.offset ≠ .noColor),
    given_inserted ws ws' text attached (by decide : Opt.offset ≠ .json)]
  rfl

/-- An offset changes nothing but the command. -/
theorem argumentsOf_combine_inserted {front : List Word} (h : ∀ w ∈ front, w.option? ≠ some .offset)
    (command command' : Command) :
    argumentsOf (combine front (ws ++ .value .offset text attached :: ws')) command' =
      { argumentsOf (combine front (ws ++ ws')) command with command := command' } := by
  rw [combine_inserted h, argumentsOf_inserted, ← List.append_assoc]
  rfl

end Offset

/-! ## 3. Whole command lines -/

section Judge

variable {l : Level} {words : List Word}

/-- Words without a request for help that may not stand on their level. -/
theorem judge_eq_usage (hrequest : ∀ w ∈ words, w.request? = none)
    (h : acceptable l words ≠ true) : judge l words = .error .usage := by
  rw [judge, List.findSome?_eq_none_iff.mpr hrequest]
  exact if_neg h

end Judge

/-- The numbers of 64 bits with a sign. -/
theorem int64_bounds_iff {n : Int} :
    Int64.minValue.toInt ≤ n ∧ n ≤ Int64.maxValue.toInt ↔ -2 ^ 63 ≤ n ∧ n < 2 ^ 63 := by
  rw [Int64.toInt_minValue, Int64.toInt_maxValue]
  omega

section Whole

variable {c : CommandName} (hc : c = .find ∨ c = .masked) {before after spelling : List String}
  {words : List Word} {command : Command} {n : Int} {text : String}
  (hbefore : Complete (.behind c) before)
  (hbehind : readBehind c (before ++ after) = .ok (words, command))
  (hnone : occurrences words .offset = 0) (hn : Text.Numeral n text)
  (hspelling : spelling ∈ offsetSpellings text)
include hc hbefore hbehind hn hspelling

/-- The words behind the command's word, without the offset and with it. -/
theorem exists_inserted : ∃ ws ws' attached, words = ws ++ ws' ∧
    readWords (.behind c) .anything (before ++ spelling ++ after) =
      (ws ++ .value .offset text attached :: ws', .complete) := by
  obtain ⟨hwords, -, -⟩ := readBehind_eq_ok.mp hbehind
  obtain ⟨attached, hoffset⟩ := readWords_offset hc hn.ne_empty hn.head?_ne_equals hspelling
  rw [readWords_append hbefore] at hwords
  obtain ⟨rfl, hending⟩ := Prod.mk.inj hwords
  refine ⟨_, _, attached, rfl, ?_⟩
  rw [List.append_assoc, readWords_append hbefore, hoffset, hending]

include hnone

theorem exists_readBehind_offset {offset : Int64} (hoffset : Text.int64? text = some offset) :
    ∃ ws ws' attached, words = ws ++ ws' ∧
      readBehind c (before ++ spelling ++ after) =
        .ok (ws ++ .value .offset text attached :: ws', command.withOffset offset) := by
  obtain ⟨ws, ws', attached, rfl, hread⟩ := exists_inserted hc hbefore hbehind hn hspelling
  obtain ⟨-, hjudge, hcommand⟩ := readBehind_eq_ok.mp hbehind
  obtain ⟨hrequest, hacceptable⟩ := judge_eq_ok_iff.mp hjudge
  have hadmits : Opt.offset.admits text = true := Option.isSome_iff_exists.mpr ⟨offset, hoffset⟩
  obtain ⟨hfirst, hlater⟩ := List.forall_mem_append.mp hrequest
  refine ⟨ws, ws', attached, rfl, readBehind_eq_ok.mpr ⟨hread, judge_eq_ok_iff.mpr ⟨?_, ?_⟩, ?_⟩⟩
  · exact List.forall_mem_append.mpr ⟨hfirst, List.forall_mem_cons.mpr ⟨rfl, hlater⟩⟩
  · exact (acceptable_inserted ws ws' text attached hnone).mpr ⟨hadmits, hacceptable⟩
  · exact commandOf?_inserted hc hnone hoffset hcommand

theorem readBehind_offset_eq_usage (hoffset : Text.int64? text = none) :
    readBehind c (before ++ spelling ++ after) = .error .usage := by
  obtain ⟨ws, ws', attached, rfl, hread⟩ := exists_inserted hc hbefore hbehind hn hspelling
  obtain ⟨-, hjudge, -⟩ := readBehind_eq_ok.mp hbehind
  obtain ⟨hfirst, hlater⟩ := List.forall_mem_append.mp (judge_eq_ok_iff.mp hjudge).1
  have hrequest : ∀ w ∈ ws ++ .value .offset text attached :: ws', w.request? = none :=
    List.forall_mem_append.mpr ⟨hfirst, List.forall_mem_cons.mpr ⟨rfl, hlater⟩⟩
  have hadmits : ¬ Opt.offset.admits text = true := by
    show ¬ (Text.int64? text).isSome = true
    rw [hoffset]
    exact Bool.false_ne_true
  have hacceptable : acceptable (.behind c) (ws ++ .value .offset text attached :: ws') ≠ true :=
    fun h => hadmits ((acceptable_inserted ws ws' text attached hnone).mp h).1
  simp only [readBehind, hread, judge_eq_usage hrequest hacceptable]
  rfl

end Whole

/-- There is no offset on the level in front of a command's word. -/
theorem option?_ne_offset (front : List String) :
    ∀ w ∈ (readWords .front .anything front).1, w.option? ≠ some .offset := fun _ hw ho =>
  absurd (option?_of_mem_readWords hw ho) (by decide)

/-- An offset among other arguments. The command line is carried out without it and gives no offset; by
`exists_complete` every such command line has a `front`. The offset is written in any of the five ways,
in front of the arguments behind the command's word, behind them, or between two of them. If the number
has 64 bits, then it is the offset of the command, and everything else is as it was. If it has more,
then the command line is refused. -/
theorem parse_offset {c : CommandName} (hc : c = .find ∨ c = .masked)
    {front before after : List String} (hfront : Complete .front front)
    (hbefore : Complete (.behind c) before) {a : Arguments}
    (hread : parse (front ++ c.text :: (before ++ after)) = .ok a)
    (hnone : occurrences (readWords (.behind c) .anything (before ++ after)).1 .offset = 0)
    {n : Int} {text : String} (hn : Text.Numeral n text) {spelling : List String}
    (hspelling : spelling ∈ offsetSpellings text) :
    (-2 ^ 63 ≤ n ∧ n < 2 ^ 63 →
        ∃ offset : Int64, offset.toInt = n ∧ (a.command.withOffset offset).offset? = some offset ∧
          parse (front ++ c.text :: (before ++ spelling ++ after)) =
            .ok { a with command := a.command.withOffset offset }) ∧
      (¬ (-2 ^ 63 ≤ n ∧ n < 2 ^ 63) →
        parse (front ++ c.text :: (before ++ spelling ++ after)) = .error .usage) := by
  obtain ⟨hsettled, words, command, hbehind, hwords, rfl⟩ := (parse_eq_ok hfront).mp hread
  obtain ⟨hwordsRead, -, hcommand⟩ := readBehind_eq_ok.mp hbehind
  rw [hwordsRead] at hnone
  constructor
  · intro hrange
    have hoffset := Text.int64?_of_numeral hn (int64_bounds_iff.mpr hrange)
    -- The other words are read as before, with this one inserted between them.
    obtain ⟨ws, ws', attached, rfl, hinserted⟩ :=
      exists_readBehind_offset hc hbefore hbehind hnone hn hspelling hoffset
    refine ⟨Int64.ofInt n, ?_, ?_, (parse_eq_ok hfront).mpr ⟨hsettled, _, _, hinserted, hwords, ?_⟩⟩
    · exact Int64.toInt_ofInt_of_le hrange.1 hrange.2
    · exact command.offset?_withOffset (name_of_commandOf? hcommand ▸ hc) _
    · exact argumentsOf_combine_inserted (option?_ne_offset front) command _
  · intro hrange
    have hoffset := Text.int64?_eq_none hn (mt int64_bounds_iff.mp hrange)
    rw [parse_append_command hfront, hsettled,
      readBehind_offset_eq_usage hc hbefore hbehind hnone hn hspelling hoffset]
    rfl

/-- The lowest offset, by itself between two arguments, with the letters of two other options behind
it, and the same with one more. -/
theorem parse_offset_lowest :
    let front := ["-v"]
    let before := ["--input", "-", "90"]
    let after := ["-avl", "trace"]
    let a : Arguments := {
      logLevel := some "trace", verbosity := 1,
      command := .find "90" 0 { input := some "-", all := true } }
    (Complete .front front ∧ Complete (.behind .find) before ∧
      parse (front ++ CommandName.find.text :: (before ++ after)) = .ok a ∧
      occurrences (readWords (.behind .find) .anything (before ++ after)).1 .offset = 0 ∧
      Text.Numeral (-2 ^ 63) "-09223372036854775808" ∧ Text.Numeral (2 ^ 63) "+9223372036854775808" ∧
      ["-o", "-09223372036854775808"] ∈ offsetSpellings "-09223372036854775808" ∧
      ["-o+9223372036854775808"] ∈ offsetSpellings "+9223372036854775808") ∧
    (∃ offset : Int64, offset.toInt = -2 ^ 63 ∧
      parse ["-v", "find", "--input", "-", "90", "-o", "-09223372036854775808", "-avl", "trace"] =
        .ok { a with command := a.command.withOffset offset }) ∧
    parse ["-v", "find", "--input", "-", "90", "-o+9223372036854775808", "-avl", "trace"] =
      .error .usage := by
  intro front before after a
  have hfront : Complete .front front := ⟨by decide, by decide⟩
  have hbefore : Complete (.behind .find) before := ⟨by decide, by decide⟩
  have hread : parse (front ++ CommandName.find.text :: (before ++ after)) = .ok a := by decide
  have hnone : occurrences (readWords (.behind .find) .anything (before ++ after)).1 .offset = 0 := by
    decide
  have hlowest : Text.Numeral (-2 ^ 63) "-09223372036854775808" := .minus 1 (2 ^ 63)
  have hmore : Text.Numeral (2 ^ 63) "+9223372036854775808" := .plus 0 (2 ^ 63)
  have hseparate : ["-o", "-09223372036854775808"] ∈ offsetSpellings "-09223372036854775808" := by
    decide
  have hattached : ["-o+9223372036854775808"] ∈ offsetSpellings "+9223372036854775808" := by decide
  refine ⟨⟨hfront, hbefore, hread, hnone, hlowest, hmore, hseparate, hattached⟩, ?_, ?_⟩
  · obtain ⟨offset, hoffset, -, hparse⟩ :=
      (parse_offset (.inl rfl) hfront hbefore hread hnone hlowest hseparate).1 (by decide)
    exact ⟨offset, hoffset, hparse⟩
  · exact (parse_offset (.inl rfl) hfront hbefore hread hnone hmore hattached).2 (by decide)

end CommandLine

end ByteScan
