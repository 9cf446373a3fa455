import ByteScan.HexBytes
import ByteScan.Proofs.Text.Hex
import ByteScan.Proofs.Text.Runs
import Mathlib.Data.Bool.AllAny
import Mathlib.Data.List.Forall2
import Mathlib.Data.String.Basic

/-!
# Bytes in text are decoded back

A text writes bytes if its groups, without the marks in front of them, are an even number of digits in
all. Then it writes the bytes that the digits write pair by pair, and that is what is read.

`HexBytes.read?` takes the digits in pairs from the front. Here is also the way that a machine goes:
it has the digits in UTF-8, it cuts out two bytes after two bytes, and it reads each piece as a number
in hexadecimal. That can go wrong in more ways, but a check at the beginning rules them all out.

* `Unmarked`, `Stripped`, `Cleaned`: a text without its blanks and marks.
* `Spells`: digits in either case that write some bytes.
* `Grouped`: bytes in groups, with or without marks, and with blanks between them.
* `decode`: the digits cut at byte positions.

Results:
1. `unmarked_iff`, `cleaned_iff`: what is taken out of a text.
2. `ofPairs?_eq_some_iff`, `isSome_ofPairs?_iff`: digits in pairs.
3. `decode_eq`: reading by byte positions comes to the same, and cannot go wrong in any other way.
4. `spells_of_grouped`: groups.
5. `read?_outcome`: all texts.
-/

namespace ByteScan.HexBytes

/-! ## Definitions -/

/-- The group is `rest` behind some marks, each of which is a zero and the letter `x`, and no mark is
left in front of `rest`. -/
def Unmarked (x : Char) (group rest : List Char) : Prop :=
  (∃ n, group = (List.replicate n ['0', x]).flatten ++ rest) ∧ ¬ ['0', x] <+: rest

/-- The group is `part` behind marks `0x`, and then marks `0X`. -/
def Stripped (group part : List Char) : Prop :=
  ∃ middle, Unmarked 'x' group middle ∧ Unmarked 'X' middle part

/-- The text is `cs` when its blanks are taken out, and the marks in front of each group. -/
def Cleaned (text : String) (cs : List Char) : Prop :=
  ∃ groups parts, Text.Runs text.toList groups ∧ List.Forall₂ Stripped groups parts ∧
    cs = parts.flatten

/-- The characters are two digits for each of the bytes. Letters may be in either case. -/
def Spells (bytes : List UInt8) (cs : List Char) : Prop :=
  cs.map Char.toUpper = bytes.flatMap fun b => (Text.byteText b).toList

instance (bytes : List UInt8) (cs : List Char) : Decidable (Spells bytes cs) :=
  inferInstanceAs (Decidable (cs.map Char.toUpper = bytes.flatMap fun b => (Text.byteText b).toList))

/-- Bytes in groups of any length. A group may have a mark in front of it, and there are blanks
between the groups. -/
inductive Grouped : List (List UInt8) → List Char → Prop
  | nil {gap : List Char} : (∀ c ∈ gap, Text.isBlank c = true) → Grouped [] gap
  | cons {gap mark cs rest : List Char} {group : List UInt8} {groups : List (List UInt8)} :
      (∀ c ∈ gap, Text.isBlank c = true) → mark ∈ [[], ['0', 'x'], ['0', 'X']] → Spells group cs →
      (∀ c ∈ rest.head?, Text.isBlank c = true) → Grouped groups rest →
      Grouped (group :: groups) (gap ++ (mark ++ cs ++ rest))

/-- Why a text is not decoded. -/
inductive Failure where
  /-- The text writes no bytes. -/
  | refused (message : String)
  /-- A piece of the text is not the number of a byte. -/
  | notByte (piece : List Char)
  /-- A piece begins or ends within a character, or behind the last one. This is a trap. -/
  | noBoundary
  deriving DecidableEq, Repr

/-- A text cut at a position in its bytes, if that is a boundary between characters. -/
def cutAt? : Nat → List Char → Option (List Char × List Char)
  | 0, cs => some ([], cs)
  | _ + 1, [] => none
  | n + 1, c :: cs =>
    if c.utf8Size ≤ n + 1 then
      (cutAt? (n + 1 - c.utf8Size) cs).map fun (front, rest) => (c :: front, rest)
    else none

/-- The two bytes of a text at a position. -/
def piece (cs : List Char) (position : Nat) : Except Failure (List Char) :=
  match (cutAt? position cs).bind fun cut => cutAt? 2 cut.2 with
  | none => .error .noBoundary
  | some (front, _) => .ok front

/-- The number that a text writes in hexadecimal, with or without a plus sign, if it is a byte. -/
def number (cs : List Char) : Except Failure UInt8 :=
  let digits := if cs.head? = some '+' then cs.tail else cs
  match digits.foldlM (fun n c => (Text.hexValue? c).map (16 * n + ·)) 0 with
  | none => .error (.notByte cs)
  | some n =>
    if digits ≠ [] ∧ n < UInt8.size then .ok (UInt8.ofNat n) else .error (.notByte cs)

/-- The byte that is written at a position of a text. -/
def byteAt (cs : List Char) (position : Nat) : Except Failure UInt8 :=
  piece cs position >>= number

/-- The bytes that a text writes, read by positions. -/
def decode (text : String) : Except Failure (List UInt8) :=
  let cs := digits text
  let size := (String.ofList cs).utf8ByteSize
  if size % 2 ≠ 0 ∨ ¬ (cs.all fun c => Text.IsHexDigit c) then .error (.refused (message text))
  else (List.range (size / 2)).mapM fun i => byteAt cs (2 * i)

/-! ## 1. What is taken out of a text -/

section Marks

variable {x : Char} {cs group rest : List Char}

theorem dropMarks_mark (x : Char) (cs : List Char) : dropMarks x ('0' :: x :: cs) = dropMarks x cs :=
  if_pos rfl

theorem dropMarks_of_not_isPrefix (h : ¬ ['0', x] <+: cs) : dropMarks x cs = cs := by
  unfold dropMarks
  split
  · next c rest =>
    have hc : c ≠ x := by
      rintro rfl
      exact h (List.prefix_append _ rest)
    rw [if_neg hc]
  · rfl

theorem unmarked_dropMarks (x : Char) (cs : List Char) : Unmarked x cs (dropMarks x cs) := by
  fun_induction dropMarks x cs with
  | case1 rest ih =>
    obtain ⟨⟨n, hn⟩, hnot⟩ := ih
    refine ⟨⟨n + 1, ?_⟩, hnot⟩
    rw [List.replicate_succ, List.flatten_cons, List.append_assoc, ← hn]
    rfl
  | case2 c rest hc =>
    refine ⟨⟨0, rfl⟩, fun hprefix => hc ?_⟩
    obtain ⟨more, heq⟩ := hprefix
    exact (List.cons.inj (List.cons.inj heq).2).1.symm
  | case3 cs hcs =>
    refine ⟨⟨0, rfl⟩, fun hprefix => ?_⟩
    obtain ⟨more, heq⟩ := hprefix
    exact hcs x more heq.symm

/-- A group has one rest without marks in front of it. -/
theorem unmarked_iff : Unmarked x group rest ↔ rest = dropMarks x group := by
  constructor
  · rintro ⟨⟨n, rfl⟩, hnot⟩
    induction n with
    | zero => exact (dropMarks_of_not_isPrefix hnot).symm
    | succ n ih =>
      rw [List.replicate_succ, List.flatten_cons, List.append_assoc]
      exact ih.trans (dropMarks_mark x _).symm
  · rintro rfl
    exact unmarked_dropMarks x group

theorem stripped_iff : Stripped group rest ↔ rest = dropMarks 'X' (dropMarks 'x' group) := by
  simp only [Stripped, unmarked_iff, exists_eq_left]

theorem forall₂_stripped_iff {groups parts : List (List Char)} :
    List.Forall₂ Stripped groups parts ↔
      parts = groups.map fun group => dropMarks 'X' (dropMarks 'x' group) := by
  constructor
  · intro h
    induction h with
    | nil => rfl
    | cons hgroup _ ih => rw [List.map_cons, ← ih, ← stripped_iff.mp hgroup]
  · rintro rfl
    rw [List.forall₂_map_right_iff]
    exact List.forall₂_same.mpr fun group _ => stripped_iff.mpr rfl

/-- The digits of a text are what is left without its blanks and marks. -/
theorem cleaned_iff {text : String} : Cleaned text cs ↔ cs = digits text := by
  constructor
  · rintro ⟨groups, parts, hgroups, hparts, rfl⟩
    rw [Text.runs_iff.mp hgroups] at hparts
    rw [forall₂_stripped_iff.mp hparts, digits, List.flatMap]
  · rintro rfl
    exact ⟨_, _, Text.runs_iff.mpr rfl, forall₂_stripped_iff.mpr rfl, List.flatMap_def ..⟩

end Marks

/-! ## 2. Digits in pairs -/

section Pairs

variable {bytes : List UInt8} {cs : List Char}

theorem spells_nil_right : Spells bytes [] ↔ bytes = [] := by
  cases bytes with
  | nil => exact iff_of_true rfl rfl
  | cons b bytes => simp [Spells, Text.toList_byteText]

theorem not_spells_singleton {c : Char} : ¬ Spells bytes [c] := by
  cases bytes with
  | nil => simp [Spells]
  | cons b bytes => simp [Spells, Text.toList_byteText]

theorem spells_cons_cons {high low : Char} : Spells bytes (high :: low :: cs) ↔
    ∃ b more, Text.byte? high low = some b ∧ Spells more cs ∧ bytes = b :: more := by
  cases bytes with
  | nil => simp [Spells]
  | cons b bytes =>
    have hpair : Spells (b :: bytes) (high :: low :: cs) ↔
        (Text.byteText b).toList = [high.toUpper, low.toUpper] ∧ Spells bytes cs := by
      simp only [Spells, List.map_cons, List.flatMap_cons, Text.toList_byteText, List.cons_append,
        List.nil_append, List.cons.injEq, and_true, and_assoc, @eq_comm Char (Char.toUpper _)]
    rw [hpair, ← Text.byte?_eq_some_iff]
    constructor
    · rintro ⟨hb, hmore⟩
      exact ⟨b, bytes, hb, hmore, rfl⟩
    · rintro ⟨_, _, hb, hmore, heq⟩
      obtain ⟨rfl, rfl⟩ := List.cons.inj heq
      exact ⟨hb, hmore⟩

/-- Bytes are read from digits that write them, and from no others. -/
theorem ofPairs?_eq_some_iff : ofPairs? cs = some bytes ↔ Spells bytes cs := by
  fun_induction ofPairs? cs generalizing bytes with
  | case1 => rw [spells_nil_right, Option.some.injEq, eq_comm]
  | case2 c => exact iff_of_false (Option.some_ne_none bytes).symm not_spells_singleton
  | case3 high low rest ih =>
    simp only [spells_cons_cons, Option.bind_eq_some_iff, Option.pure_def, Option.some.injEq, ih,
      Option.bind_eq_bind, exists_and_left, @eq_comm _ bytes]

/-- Digits are read if there is an even number of them, and nothing else is read. -/
theorem isSome_ofPairs?_iff :
    (ofPairs? cs).isSome = true ↔ cs.length % 2 = 0 ∧ ∀ c ∈ cs, Text.IsHexDigit c := by
  fun_induction ofPairs? cs with
  | case1 => simp
  | case2 c => simp
  | case3 high low rest ih =>
    by_cases hdigits : Text.IsHexDigit high ∧ Text.IsHexDigit low
    · obtain ⟨b, hb, -⟩ := Text.exists_byte? hdigits.1 hdigits.2
      have hrest : (do
          let b ← Text.byte? high low
          let bs ← ofPairs? rest
          return b :: bs).isSome = (ofPairs? rest).isSome := by
        rw [hb]
        cases ofPairs? rest <;> rfl
      have hlength : (high :: low :: rest).length % 2 = rest.length % 2 :=
        Nat.add_mod_right rest.length 2
      rw [hrest, ih, hlength]
      simp [hdigits]
    · rw [Text.byte?_eq_none hdigits]
      refine iff_of_false Bool.false_ne_true fun h => hdigits ?_
      exact ⟨h.2 high (by simp), h.2 low (by simp)⟩

theorem Spells.isHexDigit (h : Spells bytes cs) : ∀ c ∈ cs, Text.IsHexDigit c := by
  have hread := ofPairs?_eq_some_iff.mpr h
  exact (isSome_ofPairs?_iff.mp (Option.isSome_of_eq_some hread)).2

end Pairs

/-! ## 3. Reading by byte positions -/

section Positions

variable {high low : Char} {cs : List Char}

theorem utf8Size_of_isHexDigit {c : Char} (h : Text.IsHexDigit c) : c.utf8Size = 1 := by
  have hlt := Text.toNat_lt_of_isHexDigit h
  exact Char.utf8Size_eq_one_iff.mpr (Nat.le_of_lt_succ (Nat.lt_trans hlt (by decide)))

/-- Digits have as many bytes as characters. -/
theorem utf8ByteSize_of_isHexDigit (h : ∀ c ∈ cs, Text.IsHexDigit c) :
    (String.ofList cs).utf8ByteSize = cs.length := by
  rw [String.utf8ByteSize_ofList]
  induction cs with
  | nil => rfl
  | cons c cs ih =>
    obtain ⟨hc, hcs⟩ := List.forall_mem_cons.mp h
    rw [String.utf8Len_cons, ih hcs, utf8Size_of_isHexDigit hc, List.length_cons]

theorem cutAt?_cons {c : Char} (h : Text.IsHexDigit c) (n : Nat) (cs : List Char) :
    cutAt? (n + 1) (c :: cs) = (cutAt? n cs).map fun (front, rest) => (c :: front, rest) := by
  rw [cutAt?, utf8Size_of_isHexDigit h, if_pos (Nat.le_add_left 1 n), Nat.add_sub_cancel]

/-- The first piece of some digits. -/
theorem piece_zero (hhigh : Text.IsHexDigit high) (hlow : Text.IsHexDigit low) :
    piece (high :: low :: cs) 0 = .ok [high, low] := by
  have hcut : cutAt? 2 (high :: low :: cs) = some ([high, low], cs) := by
    rw [cutAt?_cons hhigh, cutAt?_cons hlow, cutAt?]
    rfl
  rw [piece, cutAt?, Option.bind_some, hcut]

/-- The later pieces are those of the digits that are left. -/
theorem piece_add_two (hhigh : Text.IsHexDigit high) (hlow : Text.IsHexDigit low) (n : Nat) :
    piece (high :: low :: cs) (n + 2) = piece cs n := by
  rw [piece, cutAt?_cons hhigh, cutAt?_cons hlow, piece]
  cases cutAt? n cs <;> rfl

/-- Two digits are the number of the byte that they write. -/
theorem number_pair (hhigh : Text.IsHexDigit high) (hlow : Text.IsHexDigit low) {b : UInt8}
    (h : Text.byte? high low = some b) : number [high, low] = .ok b := by
  obtain ⟨n, hn, hvalue, -⟩ := Text.exists_hexValue? hhigh
  obtain ⟨m, hm, lvalue, -⟩ := Text.exists_hexValue? hlow
  have hplus : ¬ [high, low].head? = some '+' := by
    rintro ⟨⟩
    exact absurd hhigh (by decide)
  have hread : [high, low].foldlM (fun n c => (Text.hexValue? c).map (16 * n + ·)) 0 =
      some (16 * n + m) := by
    simp [hvalue, lvalue]
  have hbyte : UInt8.ofNat (16 * n + m) = b := by
    rw [Text.byte?, hvalue, lvalue] at h
    exact Option.some.inj h
  have hlt : 16 * n + m < UInt8.size := by
    rw [UInt8.size]
    omega
  rw [number, if_neg hplus]
  simp only [hread, ne_eq, reduceCtorEq, not_false_eq_true, true_and, if_pos hlt, hbyte]

/-- The pieces of digits are read as the bytes that the digits write. -/
theorem mapM_byteAt {bytes : List UInt8} (h : Spells bytes cs) :
    (List.range (cs.length / 2)).mapM (fun i => byteAt cs (2 * i)) = .ok bytes := by
  induction cs using ofPairs?.induct generalizing bytes with
  | case1 =>
    rw [spells_nil_right.mp h]
    rfl
  | case2 c => exact absurd h not_spells_singleton
  | case3 high low rest ih =>
    obtain ⟨b, more, hb, hmore, rfl⟩ := spells_cons_cons.mp h
    obtain ⟨hhigh, hdigits⟩ := List.forall_mem_cons.mp h.isHexDigit
    have hlow : Text.IsHexDigit low := hdigits low List.mem_cons_self
    have hlength : (high :: low :: rest).length / 2 = rest.length / 2 + 1 :=
      Nat.add_div_right rest.length Nat.two_pos
    have hfirst : byteAt (high :: low :: rest) 0 = .ok b := by
      rw [byteAt, piece_zero hhigh hlow]
      exact number_pair hhigh hlow hb
    have hlater : (fun i => byteAt (high :: low :: rest) (2 * i)) ∘ Nat.succ =
        fun i => byteAt rest (2 * i) := by
      funext i
      exact congrArg (· >>= number) (piece_add_two hhigh hlow (2 * i))
    rw [hlength, List.range_succ_eq_map, List.mapM_cons, List.mapM_map, hlater, ih hmore,
      Nat.mul_zero, hfirst]
    rfl

/-- Reading by byte positions gives the bytes of the text, or refuses it if it has none. A piece is
always the number of a byte, and never begins or ends where it must not. -/
theorem decode_eq (text : String) : decode text =
    match read? text with
    | some bytes => .ok bytes
    | none => .error (.refused (message text)) := by
  have hcheck : (ofPairs? (digits text)).isSome = true ↔
      (digits text).length % 2 = 0 ∧ ∀ c ∈ digits text, Text.IsHexDigit c := isSome_ofPairs?_iff
  rw [read?]
  cases hread : ofPairs? (digits text) with
  | some bytes =>
    rw [hread] at hcheck
    obtain ⟨heven, hdigits⟩ := hcheck.mp rfl
    have hsize := utf8ByteSize_of_isHexDigit hdigits
    have hall : (digits text).all (fun c => Text.IsHexDigit c) = true :=
      List.all_iff_forall_prop.mpr hdigits
    rw [decode, hsize, if_neg (not_or.mpr ⟨not_not.mpr heven, not_not.mpr hall⟩)]
    exact mapM_byteAt (ofPairs?_eq_some_iff.mp hread)
  | none =>
    rw [hread] at hcheck
    rw [decode, if_pos]
    -- If the text passed the check, it would be read, and it is not.
    by_contra hnot
    rw [not_or, not_not, not_not, List.all_iff_forall_prop] at hnot
    obtain ⟨heven, hdigits⟩ := hnot
    rw [utf8ByteSize_of_isHexDigit hdigits] at heven
    exact Bool.false_ne_true (hcheck.mpr ⟨heven, hdigits⟩)

end Positions

/-! ## 4. Groups -/

section Groups

variable {cs : List Char}

theorem dropMarks_of_isHexDigit {x : Char} (hx : ¬ Text.IsHexDigit x)
    (h : ∀ c ∈ cs, Text.IsHexDigit c) : dropMarks x cs = cs := by
  refine dropMarks_of_not_isPrefix fun hprefix => hx (h x ?_)
  exact hprefix.subset (List.mem_cons_of_mem _ List.mem_cons_self)

/-- A mark goes, and no digit goes with it. -/
theorem dropMarks_mark_append {mark : List Char} (hmark : mark ∈ [[], ['0', 'x'], ['0', 'X']])
    (h : ∀ c ∈ cs, Text.IsHexDigit c) : dropMarks 'X' (dropMarks 'x' (mark ++ cs)) = cs := by
  have hlower : dropMarks 'x' cs = cs := dropMarks_of_isHexDigit (by decide) h
  have hupper : dropMarks 'X' cs = cs := dropMarks_of_isHexDigit (by decide) h
  simp only [List.mem_cons, List.not_mem_nil, or_false] at hmark
  rcases hmark with rfl | rfl | rfl
  · rw [List.nil_append, hlower, hupper]
  · rw [List.cons_append, List.cons_append, List.nil_append, dropMarks_mark, hlower, hupper]
  · have hkept : dropMarks 'x' (['0', 'X'] ++ cs) = ['0', 'X'] ++ cs := if_neg (by decide)
    rw [hkept, List.cons_append, List.cons_append, List.nil_append, dropMarks_mark, hupper]

theorem isBlank_mark_append {mark : List Char} (hmark : mark ∈ [[], ['0', 'x'], ['0', 'X']])
    (h : ∀ c ∈ cs, Text.IsHexDigit c) : ∀ c ∈ mark ++ cs, Text.isBlank c = false := by
  have hmarks : ∀ mark ∈ [[], ['0', 'x'], ['0', 'X']],
      mark.all (fun c => Text.isBlank c = false) = true := by decide
  rw [List.forall_mem_append]
  exact ⟨List.all_iff_forall_prop.mp (hmarks mark hmark),
    fun c hc => Text.isBlank_of_isHexDigit (h c hc)⟩

theorem Spells.append {bytes more : List UInt8} {ds : List Char} (h : Spells bytes cs)
    (h' : Spells more ds) : Spells (bytes ++ more) (cs ++ ds) := by
  rw [Spells, List.map_append, List.flatMap_append, h, h']

/-- The digits of grouped bytes are those of the groups. -/
theorem spells_of_grouped {groups : List (List UInt8)} (h : Grouped groups cs) :
    Spells groups.flatten
      ((Text.fields cs).flatMap fun group => dropMarks 'X' (dropMarks 'x' group)) := by
  induction h with
  | @nil gap hgap =>
    rw [Text.fields_of_runs (.nil hgap)]
    rfl
  | @cons gap mark cs rest group groups hgap hmark hcs hrest _ ih =>
    have hdigits := hcs.isHexDigit
    rw [Text.fields_append_left hgap, List.flatten_cons]
    by_cases hempty : mark ++ cs = []
    · -- A group without a mark and without bytes leaves no trace.
      obtain ⟨rfl, rfl⟩ := List.append_eq_nil_iff.mp hempty
      rw [spells_nil_right.mp hcs]
      exact ih
    · have hword : Text.IsWord (mark ++ cs) := ⟨hempty, isBlank_mark_append hmark hdigits⟩
      rw [Text.fields_word_append hword hrest, List.flatMap_cons,
        dropMarks_mark_append hmark hdigits]
      exact hcs.append ih

/-- Bytes in one run of digits are one group. -/
theorem Spells.grouped {bytes : List UInt8} (h : Spells bytes cs) : Grouped [bytes] cs := by
  have hgroup : Grouped [bytes] ([] ++ ([] ++ cs ++ [])) :=
    .cons (List.forall_mem_nil _) List.mem_cons_self h (fun _ hc => nomatch hc)
      (.nil (List.forall_mem_nil _))
  rwa [List.nil_append, List.nil_append, List.append_nil] at hgroup

theorem Grouped.cons_blank {groups : List (List UInt8)} {c : Char} (hc : Text.isBlank c = true)
    (h : Grouped groups cs) : Grouped groups (c :: cs) := by
  rcases h with hgap | ⟨hgap, hmark, hcs, hrest, hgroups⟩
  · exact .nil (List.forall_mem_cons.mpr ⟨hc, hgap⟩)
  · exact .cons (List.forall_mem_cons.mpr ⟨hc, hgap⟩) hmark hcs hrest hgroups

theorem spells_byteText (b : UInt8) : Spells [b] (Text.byteText b).toList := by
  rw [Spells, List.flatMap_singleton, Text.toList_byteText, List.map_cons, List.map_singleton,
    Text.toUpper_hexDigit (Text.high_lt b), Text.toUpper_hexDigit (Text.low_lt b)]

/-- The text of some bytes has each of them as a group. -/
theorem grouped_bytesText (bytes : List UInt8) :
    Grouped (bytes.map fun b => [b]) (Text.bytesText bytes).toList := by
  have hspace : " ".toList = [' '] := rfl
  rw [Text.bytesText, String.toList_intercalate, List.map_map, hspace]
  induction bytes with
  | nil => exact .nil (List.forall_mem_nil _)
  | cons b bytes ih =>
    cases bytes with
    | nil =>
      rw [List.map_singleton, List.map_singleton, List.intercalate_singleton]
      exact (spells_byteText b).grouped
    | cons next bytes =>
      have hrest := ih.cons_blank (c := ' ') rfl
      have hgroup : Grouped ([b] :: (next :: bytes).map fun b => [b])
          ([] ++ ([] ++ (Text.byteText b).toList ++ ' ' ::
            [' '].intercalate ((next :: bytes).map (String.toList ∘ Text.byteText)))) :=
        .cons (List.forall_mem_nil _) List.mem_cons_self (spells_byteText b)
          (by rintro c ⟨⟩; rfl) hrest
      have htext : [' '].intercalate
          (((b :: next :: bytes).map (String.toList ∘ Text.byteText))) =
            (Text.byteText b).toList ++ ' ' ::
              [' '].intercalate ((next :: bytes).map (String.toList ∘ Text.byteText)) := by
        rw [List.map_cons, List.map_cons, List.intercalate_cons_cons, List.append_assoc]
        rfl
      rw [List.nil_append, List.nil_append] at hgroup
      rw [htext]
      exact hgroup

end Groups

/-! ## 5. All texts -/

/-- What a text is read as. The digits of a text are what is left when its blanks are taken out and
the marks in front of its groups. The text is read if these are hexadecimal digits only and their
number is even, and then it is read as the bytes that the digits write two by two. Reading by byte
positions gives the same bytes, or the one refusal, and never comes to a position within a character
nor to a piece that is no byte. In particular bytes are read back from one run of digits in either
case, from their text with spaces, and from groups with and without marks. -/
theorem read?_outcome (text : String) :
    (∀ cs, Cleaned text cs ↔ cs = digits text) ∧
      ((read? text).isSome = true ↔
        (digits text).length % 2 = 0 ∧ ∀ c ∈ digits text, Text.IsHexDigit c) ∧
      (∀ bytes, read? text = some bytes ↔ Spells bytes (digits text)) ∧
      (decode text =
        match read? text with
        | some bytes => .ok bytes
        | none => .error (.refused (message text))) ∧
      (∀ bytes, Spells bytes text.toList ∨ text = Text.bytesText bytes → read? text = some bytes) ∧
      ∀ groups, Grouped groups text.toList → read? text = some groups.flatten := by
  have hgrouped : ∀ groups, Grouped groups text.toList → read? text = some groups.flatten :=
    fun groups h => ofPairs?_eq_some_iff.mpr (spells_of_grouped h)
  refine ⟨fun cs => cleaned_iff, isSome_ofPairs?_iff, fun bytes => ofPairs?_eq_some_iff,
    decode_eq text, fun bytes h => ?_, hgrouped⟩
  rcases h with hrun | rfl
  · rw [hgrouped [bytes] hrun.grouped, List.flatten_singleton]
  · rw [hgrouped _ (grouped_bytesText bytes)]
    exact congrArg some (List.flatMap_singleton' bytes)

/-- The same bytes in one run, with spaces, and in two groups with marks and other blanks. -/
theorem read?_55_8B_EC :
    let bytes : List UInt8 := [0x55, 0x8B, 0xEC]
    Spells bytes "558bEC".toList ∧ read? "558bEC" = some bytes ∧
      "55 8B EC" = Text.bytesText bytes ∧ read? "55 8B EC" = some bytes ∧
      Grouped [[0x55], [0x8B, 0xEC]] "0x55\t\u3000 0X8bec\n".toList ∧
      read? "0x55\t\u3000 0X8bec\n" = some bytes := by
  intro bytes
  have hrun : Spells bytes "558bEC".toList := by decide
  have htext : "55 8B EC" = Text.bytesText bytes := by decide
  have hsecond : Grouped [[0x8B, 0xEC]]
      (['\t', '\u3000', ' '] ++ (['0', 'X'] ++ "8bec".toList ++ ['\n'])) :=
    .cons (List.all_eq_true.mp rfl) (by decide) (by decide) (by rintro c ⟨⟩; rfl)
      (.nil (List.all_eq_true.mp rfl))
  have hgrouped : Grouped [[0x55], [0x8B, 0xEC]] ([] ++ (['0', 'x'] ++ "55".toList ++
      (['\t', '\u3000', ' '] ++ (['0', 'X'] ++ "8bec".toList ++ ['\n'])))) :=
    .cons (List.all_eq_true.mp rfl) (by decide) (by decide) (by rintro c ⟨⟩; rfl) hsecond
  obtain ⟨-, -, -, -, hread, -⟩ := read?_outcome "558bEC"
  obtain ⟨-, -, -, -, hread', -⟩ := read?_outcome "55 8B EC"
  obtain ⟨-, -, -, -, -, hread''⟩ := read?_outcome "0x55\t\u3000 0X8bec\n"
  exact ⟨hrun, hread bytes (.inl hrun), htext, hread' bytes (.inr htext), hgrouped,
    hread'' _ hgrouped⟩

end ByteScan.HexBytes
