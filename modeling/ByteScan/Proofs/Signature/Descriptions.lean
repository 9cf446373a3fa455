import ByteScan.Proofs.Signature.RoundTrip
import ByteScan.Proofs.Text.Runs

/-!
# Descriptions of signatures

A signature is described by words, or by bytes under a mask. This module says which descriptions are
accepted, which signature they describe, and which fault every other description has.

Both are read piece by piece, words in the one case and mask characters in the other. What the two
readings have in common is `readEach`: the first piece that stands for nothing is the fault.

* `readEach`: pieces that are read one by one.
* `Slot.IsWildcardWord`, `Slot.IsByteWord`, `Slot.canonical`: the words of the grammar, and the one
  spelling to which each of them comes down.

Results:
1. `Slot.readWords_eq`, `Mask.readFlags_eq`: both readings are `readEach`.
2. `Slot.isNone_ofWord?`, `Slot.of_ofWord?`: what a word stands for, if it stands for anything.
3. `Signature.ofText_outcome`: texts.
4. `Mask.exactCount_eq_count`, `Mask.wildcardCount_eq_count`, `Signature.anchorIndex_eq_idxOf`: what
   can be told from the characters of a mask.
5. `Signature.ofBytesAndMask_outcome`: bytes under a mask.
-/

namespace ByteScan

/-! ## 1. Piece by piece -/

section ReadEach

variable {α β : Type} (read : α → Option β) (fault : Nat → α → SignatureError)

/-- Reads each of some pieces, the first of them having the given index. The first piece that cannot
be read is the fault. -/
def readEach (index : Nat) (pieces : List α) : Except SignatureError (List β) :=
  match (pieces.zipIdx index).find? fun piece => (read piece.1).isNone with
  | some (piece, i) => .error (fault i piece)
  | none => .ok (pieces.filterMap read)

theorem readEach_cons (index : Nat) (piece : α) (pieces : List α) :
    readEach read fault index (piece :: pieces) =
      match read piece with
      | none => .error (fault index piece)
      | some value => (readEach read fault (index + 1) pieces).map (value :: ·) := by
  rw [readEach, readEach, List.zipIdx_cons, List.find?_cons, List.filterMap_cons]
  cases read piece with
  | none => rfl
  | some value =>
    cases (pieces.zipIdx (index + 1)).find? fun piece => (read piece.1).isNone <;> rfl

variable {read fault}

theorem readEach_of_none {index : Nat} {pieces : List α}
    (h : ((pieces.zipIdx index).find? fun piece => (read piece.1).isNone) = none) :
    readEach read fault index pieces = .ok (pieces.filterMap read) := by
  rw [readEach, h]

theorem readEach_of_some {index i : Nat} {pieces : List α} {piece : α}
    (h : ((pieces.zipIdx index).find? fun piece => (read piece.1).isNone) = some (piece, i)) :
    readEach read fault index pieces = .error (fault i piece) := by
  rw [readEach, h]

/-- What the values say of pieces that can all be read. -/
theorem map_filterMap_of_read {γ : Type} {f : β → γ} {g : α → γ} {pieces : List α}
    (h : ∀ piece ∈ pieces, ∃ value, read piece = some value ∧ f value = g piece) :
    (pieces.filterMap read).map f = pieces.map g := by
  induction pieces with
  | nil => rfl
  | cons piece pieces ih =>
    obtain ⟨⟨value, hread, hvalue⟩, hpieces⟩ := List.forall_mem_cons.mp h
    rw [List.filterMap_cons, hread, List.map_cons, List.map_cons, hvalue, ih hpieces]

theorem forall_of_find?_zipIdx {p : α → Bool} {index : Nat} {pieces : List α}
    (h : ((pieces.zipIdx index).find? fun piece => p piece.1) = none) :
    ∀ piece ∈ pieces, p piece = false := by
  intro piece hpiece
  have hmem : piece ∈ (pieces.zipIdx index).map Prod.fst := by
    rwa [List.zipIdx_map_fst]
  obtain ⟨⟨_, i⟩, hi, rfl⟩ := List.mem_map.mp hmem
  simpa using List.find?_eq_none.mp h _ hi

end ReadEach

theorem Slot.readWords_eq (index : Nat) (words : List (List Char)) :
    readWords index words =
      readEach ofWord? (fun i word => .malformedToken i (String.ofList word)) index words := by
  induction words generalizing index with
  | nil => rfl
  | cons word words ih =>
    rw [readWords, readEach_cons]
    cases ofWord? word with
    | none => rfl
    | some slot => exact congrArg (Except.map (slot :: ·)) (ih (index + 1))

theorem Mask.readFlags_eq (index : Nat) (cs : List Char) :
    readFlags index cs = readEach MaskFlag.ofChar? .invalidMask index cs := by
  induction cs generalizing index with
  | nil => rfl
  | cons c cs ih =>
    rw [readFlags, readEach_cons]
    cases MaskFlag.ofChar? c with
    | none => rfl
    | some flag => exact congrArg (Except.map (flag :: ·)) (ih (index + 1))

/-! ## 2. Words -/

namespace Slot

/-- The words for any byte. -/
def IsWildcardWord (word : List Char) : Prop :=
  word = ['?'] ∨ word = ['?', '?']

/-- The words for one byte: two hexadecimal digits. -/
def IsByteWord (word : List Char) : Prop :=
  word.length = 2 ∧ ∀ c ∈ word, Text.IsHexDigit c

instance : DecidablePred IsWildcardWord :=
  fun word => inferInstanceAs (Decidable (word = ['?'] ∨ word = ['?', '?']))

instance : DecidablePred IsByteWord :=
  fun word => inferInstanceAs (Decidable (word.length = 2 ∧ ∀ c ∈ word, Text.IsHexDigit c))

/-- The words of the grammar. -/
def IsSlotWord (word : List Char) : Prop :=
  IsWildcardWord word ∨ IsByteWord word

instance : DecidablePred IsSlotWord :=
  fun word => inferInstanceAs (Decidable (IsWildcardWord word ∨ IsByteWord word))

/-- A word as it is written in canonical text: with digits in upper case, and with two question marks
for a wildcard. -/
def canonical (word : List Char) : List Char :=
  if word = ['?'] then ['?', '?'] else word.map Char.toUpper

section OfWord

variable {word : List Char}

theorem ofWord?_of_isWildcardWord (h : IsWildcardWord word) :
    ofWord? word = some any ∧ canonical word = any.text.toList := by
  rcases h with rfl | rfl
  · exact ⟨rfl, rfl⟩
  · exact ⟨rfl, rfl⟩

theorem isHexDigit_ne_question {c : Char} (h : Text.IsHexDigit c) : c ≠ '?' := by
  rintro rfl
  revert h
  decide

theorem ofWord?_of_isByteWord (h : IsByteWord word) :
    ∃ b, ofWord? word = some (exact b) ∧ canonical word = (exact b).text.toList := by
  obtain ⟨hlength, hdigits⟩ := h
  obtain ⟨high, low, rfl⟩ := List.length_eq_two.mp hlength
  have hhigh : Text.IsHexDigit high := hdigits high List.mem_cons_self
  have hlow : Text.IsHexDigit low := hdigits low (List.mem_cons_of_mem _ List.mem_cons_self)
  obtain ⟨b, hb, htext⟩ := Text.exists_byte? hhigh hlow
  refine ⟨b, ?_, ?_⟩
  · rw [ofWord?_pair (isHexDigit_ne_question hhigh), hb]
    rfl
  · rw [canonical, if_neg (by simp), text, htext]
    rfl

theorem ofWord?_eq_none (hwildcard : ¬ IsWildcardWord word) (hbyte : ¬ IsByteWord word) :
    ofWord? word = none := by
  unfold ofWord?
  split
  · exact absurd (.inl rfl) hwildcard
  · exact absurd (.inr rfl) hwildcard
  · next high low _ =>
    have hdigits : ¬ (Text.IsHexDigit high ∧ Text.IsHexDigit low) := by
      rintro ⟨hhigh, hlow⟩
      exact hbyte ⟨rfl, by simpa using ⟨hhigh, hlow⟩⟩
    rw [Text.byte?_eq_none hdigits]
    rfl
  · rfl

theorem isNone_ofWord? : (ofWord? word).isNone = decide (¬ IsSlotWord word) := by
  by_cases hwildcard : IsWildcardWord word
  · have hslot : IsSlotWord word := .inl hwildcard
    rw [(ofWord?_of_isWildcardWord hwildcard).1]
    simp [hslot]
  by_cases hbyte : IsByteWord word
  · have hslot : IsSlotWord word := .inr hbyte
    obtain ⟨b, hb, -⟩ := ofWord?_of_isByteWord hbyte
    rw [hb]
    simp [hslot]
  · have hslot : ¬ IsSlotWord word := not_or.mpr ⟨hwildcard, hbyte⟩
    rw [ofWord?_eq_none hwildcard hbyte]
    simp [hslot]

theorem not_isByteWord (h : IsWildcardWord word) : ¬ IsByteWord word := by
  rintro ⟨_, hdigits⟩
  have hquestion : '?' ∈ word := by
    rcases h with rfl | rfl
    · exact List.mem_cons_self
    · exact List.mem_cons_self
  exact isHexDigit_ne_question (hdigits '?' hquestion) rfl

/-- What is known of a slot from its word. -/
theorem of_ofWord? {slot : Slot} (h : ofWord? word = some slot) :
    slot.text.toList = canonical word ∧ (slot.isExact = true ↔ IsByteWord word) := by
  by_cases hwildcard : IsWildcardWord word
  · obtain ⟨hany, htext⟩ := ofWord?_of_isWildcardWord hwildcard
    obtain rfl : any = slot := Option.some.inj (hany.symm.trans h)
    exact ⟨htext.symm, by simp [isExact, byte?, not_isByteWord hwildcard]⟩
  by_cases hbyte : IsByteWord word
  · obtain ⟨b, hb, htext⟩ := ofWord?_of_isByteWord hbyte
    obtain rfl : exact b = slot := Option.some.inj (hb.symm.trans h)
    exact ⟨htext.symm, by simp [isExact, byte?, hbyte]⟩
  · rw [ofWord?_eq_none hwildcard hbyte] at h
    cases h

theorem text_inj {slot other : Slot} (h : slot.text.toList = other.text.toList) : slot = other := by
  have hread := ofWord?_text slot
  rw [h, ofWord?_text] at hread
  exact (Option.some.inj hread).symm

end OfWord

section Words

variable {words : List (List Char)}

theorem map_text_filterMap (h : ∀ word ∈ words, IsSlotWord word) :
    (words.filterMap ofWord?).map (fun slot => slot.text.toList) = words.map canonical := by
  refine map_filterMap_of_read fun word hword => ?_
  rcases h word hword with hwildcard | hbyte
  · obtain ⟨hany, htext⟩ := ofWord?_of_isWildcardWord hwildcard
    exact ⟨any, hany, htext.symm⟩
  · obtain ⟨b, hb, htext⟩ := ofWord?_of_isByteWord hbyte
    exact ⟨exact b, hb, htext.symm⟩

theorem isSome_findSome?_byte? (words : List (List Char)) :
    ((words.filterMap ofWord?).findSome? byte?).isSome = true ↔
      ∃ word ∈ words, IsByteWord word := by
  rw [List.findSome?_isSome_iff]
  constructor
  · rintro ⟨slot, hslot, hexact⟩
    obtain ⟨word, hword, hread⟩ := List.mem_filterMap.mp hslot
    exact ⟨word, hword, (of_ofWord? hread).2.mp hexact⟩
  · rintro ⟨word, hword, hbyte⟩
    obtain ⟨b, hb, -⟩ := ofWord?_of_isByteWord hbyte
    exact ⟨exact b, List.mem_filterMap.mpr ⟨word, hword, hb⟩, rfl⟩

theorem readWords_of_isSlotWord (h : ∀ word ∈ words, IsSlotWord word) (index : Nat) :
    readWords index words = .ok (words.filterMap ofWord?) := by
  rw [readWords_eq]
  refine readEach_of_none ?_
  rw [List.find?_eq_none]
  rintro ⟨word, i⟩ hmem
  have hword := h word (List.fst_mem_of_mem_zipIdx hmem)
  simp [isNone_ofWord?, hword]

theorem readWords_of_not_isSlotWord {index i : Nat} {word : List Char}
    (h : ((words.zipIdx index).find? fun word => ¬ IsSlotWord word.1) = some (word, i)) :
    readWords index words = .error (.malformedToken i (String.ofList word)) := by
  rw [readWords_eq]
  refine readEach_of_some ?_
  simpa only [isNone_ofWord?] using h

end Words

end Slot

/-! ## 3. Texts -/

namespace Signature

theorem slots_of_ofSlots {slots : List Slot} {s : Signature} (h : ofSlots slots = .ok s) :
    s.slots = slots ∧ s.offset = 0 := by
  rw [ofSlots] at h
  split at h
  · cases h
    exact ⟨rfl, rfl⟩
  · cases h

theorem exists_ofSlots {slots : List Slot} (h : (slots.findSome? Slot.byte?).isSome = true) :
    ∃ s, ofSlots slots = .ok s :=
  ⟨⟨slots, 0, h⟩, dif_pos h⟩

theorem ofSlots_eq_noAnchor {slots : List Slot}
    (h : ¬ (slots.findSome? Slot.byte?).isSome = true) : ofSlots slots = .error .noAnchor :=
  dif_neg h

section OfText

variable {text : String}

theorem ofText_of_isSlotWord (h : ∀ word ∈ Text.fields text.toList, Slot.IsSlotWord word) :
    ofText text = ofSlots ((Text.fields text.toList).filterMap Slot.ofWord?) := by
  rw [ofText, Slot.listOfText, Slot.readWords_of_isSlotWord h]
  rfl

theorem ofText_of_not_isSlotWord {word : List Char} {i : Nat}
    (h : ((Text.fields text.toList).zipIdx.find? fun word => ¬ Slot.IsSlotWord word.1) =
      some (word, i)) :
    ofText text = .error (.malformedToken i (String.ofList word)) := by
  rw [ofText, Slot.listOfText, Slot.readWords_of_not_isSlotWord h]
  rfl

theorem forall_isSlotWord {words : List (List Char)}
    (h : (words.zipIdx.find? fun word => ¬ Slot.IsSlotWord word.1) = none) :
    ∀ word ∈ words, Slot.IsSlotWord word := by
  intro word hword
  have hnot := forall_of_find?_zipIdx (p := fun word => ¬ Slot.IsSlotWord word) h word hword
  simpa using hnot

/-- The slots of an accepted text are written as its words are. -/
theorem of_ofText {s : Signature} (h : ofText text = .ok s) :
    s.offset = 0 ∧ s.slots.map (fun slot => slot.text.toList) =
      (Text.fields text.toList).map Slot.canonical := by
  cases hfirst : (Text.fields text.toList).zipIdx.find? fun word => ¬ Slot.IsSlotWord word.1 with
  | some bad =>
    rw [ofText_of_not_isSlotWord hfirst] at h
    cases h
  | none =>
    have hwords := forall_isSlotWord hfirst
    rw [ofText_of_isSlotWord hwords] at h
    obtain ⟨hslots, hoffset⟩ := slots_of_ofSlots h
    rw [hslots]
    exact ⟨hoffset, Slot.map_text_filterMap hwords⟩

theorem toList_text (s : Signature) :
    s.text.toList = [' '].intercalate (s.slots.map fun slot => slot.text.toList) := by
  rw [Signature.text, Slot.toList_intercalate_text]

/-- A text describes a signature exactly if each of its words belongs to the grammar and some word is
a byte. The first word that does not belong there is the fault, and otherwise the missing byte is.
The words are the maximal runs of the text, and the signature has one slot for each of them. So two
texts describe the same signature exactly if their words are the same but for the case of digits and
the spelling of wildcards. -/
theorem ofText_outcome (text : String) :
    let words := Text.fields text.toList
    (∀ runs, Text.Runs text.toList runs ↔ runs = words) ∧
      (match words.zipIdx.find? fun word => ¬ Slot.IsSlotWord word.1 with
        | some (word, index) => ofText text = .error (.malformedToken index (String.ofList word))
        | none =>
          if ∃ word ∈ words, Slot.IsByteWord word then
            ∃ s, ofText text = .ok s ∧ s.offset = 0 ∧ s.length = words.length ∧
              s.text.toList = [' '].intercalate (words.map Slot.canonical)
          else ofText text = .error .noAnchor) ∧
      ∀ other s t, ofText text = .ok s → ofText other = .ok t →
        (s = t ↔
          words.map Slot.canonical = (Text.fields other.toList).map Slot.canonical) := by
  intro words
  refine ⟨fun runs => Text.runs_iff, ?_, ?_⟩
  · cases hfirst : words.zipIdx.find? fun word => ¬ Slot.IsSlotWord word.1 with
    | some bad => exact ofText_of_not_isSlotWord hfirst
    | none =>
      have hread := ofText_of_isSlotWord (forall_isSlotWord hfirst)
      -- Each word stands for a slot, so only the anchor can be missing.
      have hanchor := Slot.isSome_findSome?_byte? words
      show if _ then _ else _
      split
      · next hbyte =>
        obtain ⟨s, hs⟩ := exists_ofSlots (hanchor.mpr hbyte)
        rw [← hread] at hs
        obtain ⟨hoffset, htexts⟩ := of_ofText hs
        refine ⟨s, hs, hoffset, ?_, ?_⟩
        · simpa [length] using congrArg List.length htexts
        · rw [toList_text, htexts]
      · next hbyte => rw [hread, ofSlots_eq_noAnchor (mt hanchor.mp hbyte)]
  · intro other s t hs ht
    obtain ⟨hsoffset, hstexts⟩ := of_ofText hs
    obtain ⟨htoffset, httexts⟩ := of_ofText ht
    rw [← hstexts, ← httexts]
    constructor
    · rintro rfl
      rfl
    · intro htexts
      -- Neither text says an offset, so the slots decide, and a slot is known by its text.
      refine eq_of_slots_eq ?_ (hsoffset.trans htoffset.symm)
      exact (List.map_inj_right fun _ _ => Slot.text_inj).mp htexts

/-- The case of digits, the spelling of a wildcard and the blanks between words make no difference. -/
theorem ofText_e8_any :
    ∃ s t, ofText "e8 ?" = .ok s ∧ ofText " E8\t??\n" = .ok t ∧ s = t := by
  have hs : ofText "e8 ?" = .ok ⟨[.exact 0xE8, .any], 0, rfl⟩ := by cbv
  have ht : ofText " E8\t??\n" = .ok ⟨[.exact 0xE8, .any], 0, rfl⟩ := by cbv
  have hwords : (Text.fields "e8 ?".toList).map Slot.canonical =
      (Text.fields " E8\t??\n".toList).map Slot.canonical := by decide
  exact ⟨_, _, hs, ht, ((ofText_outcome "e8 ?").2.2 _ _ _ hs ht).mpr hwords⟩

end OfText

end Signature

/-! ## 4. Masks -/

namespace MaskFlag

theorem ofChar?_cases (c : Char) :
    c = 'x' ∧ ofChar? c = some exact ∨ c = '?' ∧ ofChar? c = some wildcard ∨
      (c ≠ 'x' ∧ c ≠ '?') ∧ ofChar? c = none := by
  by_cases hx : c = 'x'
  · subst hx
    exact .inl ⟨rfl, rfl⟩
  by_cases hquestion : c = '?'
  · subst hquestion
    exact .inr (.inl ⟨rfl, rfl⟩)
  · exact .inr (.inr ⟨⟨hx, hquestion⟩, by rw [ofChar?, if_neg hx, if_neg hquestion]⟩)

theorem isNone_ofChar? (c : Char) : (ofChar? c).isNone = decide (c ≠ 'x' ∧ c ≠ '?') := by
  rcases ofChar?_cases c with ⟨rfl, -⟩ | ⟨rfl, -⟩ | ⟨hc, hnone⟩
  · rfl
  · rfl
  · rw [hnone, decide_eq_true hc]
    rfl

theorem char_eq_x_iff (flag : MaskFlag) : (flag.char == 'x') = flag.isExact := by
  cases flag <;> rfl

theorem char_eq_question_iff (flag : MaskFlag) : (flag.char == '?') = !flag.isExact := by
  cases flag <;> rfl

end MaskFlag

namespace Mask

theorem toList_text (m : Mask) : m.text.toList = m.flags.map MaskFlag.char :=
  String.toList_ofList

theorem exactCount_eq_count (m : Mask) : m.exactCount = m.text.toList.count 'x' := by
  have hexact : (· == 'x') ∘ MaskFlag.char = MaskFlag.isExact := funext MaskFlag.char_eq_x_iff
  rw [toList_text, List.count, List.countP_map, hexact, exactCount]

theorem wildcardCount_eq_count (m : Mask) : m.wildcardCount = m.text.toList.count '?' := by
  have hwildcard : (· == '?') ∘ MaskFlag.char = fun flag => !flag.isExact :=
    funext MaskFlag.char_eq_question_iff
  have hlength := List.length_eq_countP_add_countP MaskFlag.isExact (l := m.flags)
  rw [toList_text, List.count, List.countP_map, hwildcard, wildcardCount, exactCount, hlength]
  simp

end Mask

namespace Signature

theorem anchorIndex_eq_idxOf (s : Signature) : s.anchorIndex = s.mask.text.toList.idxOf 'x' := by
  have hexact : ((· == 'x') ∘ MaskFlag.char) ∘ Slot.flag = Slot.isExact :=
    funext fun slot => (MaskFlag.char_eq_x_iff slot.flag).trans (Slot.isExact_flag slot)
  rw [Mask.toList_text, mask, List.idxOf, List.findIdx_map, List.findIdx_map, hexact, anchorIndex]

/-! ## 5. Bytes under a mask -/

section Masked

variable {bytes : List UInt8} {mask : String}

theorem ofBytesAndMask_of_length_ne (h : bytes.length ≠ mask.length) :
    ofBytesAndMask bytes mask = .error (.shapeMismatch bytes.length mask.length) := by
  rw [ofBytesAndMask, if_pos h.symm]
  rfl

theorem ofBytesAndMask_of_invalid (hlength : bytes.length = mask.length) {c : Char} {i : Nat}
    (h : (mask.toList.zipIdx.find? fun c => c.1 ≠ 'x' ∧ c.1 ≠ '?') = some (c, i)) :
    ofBytesAndMask bytes mask = .error (.invalidMask i c) := by
  have hread : Mask.ofText mask = .error (.invalidMask i c) := by
    rw [Mask.ofText, Mask.readFlags_eq, readEach]
    simp only [MaskFlag.isNone_ofChar?, h]
    rfl
  rw [ofBytesAndMask, if_neg (by simp [hlength]), hread]
  rfl

/-- A mask in which every character can be read. -/
theorem exists_flags (h : (mask.toList.zipIdx.find? fun c => c.1 ≠ 'x' ∧ c.1 ≠ '?') = none) :
    ∃ m, Mask.ofText mask = .ok m ∧ m.text = mask := by
  have hchars : ∀ c ∈ mask.toList, ∃ flag, MaskFlag.ofChar? c = some flag ∧ flag.char = id c := by
    intro c hc
    have hnot := forall_of_find?_zipIdx (p := fun c => c ≠ 'x' ∧ c ≠ '?') h c hc
    rcases MaskFlag.ofChar?_cases c with ⟨rfl, hread⟩ | ⟨rfl, hread⟩ | ⟨hc, -⟩
    · exact ⟨.exact, hread, rfl⟩
    · exact ⟨.wildcard, hread, rfl⟩
    · rw [decide_eq_true hc] at hnot
      cases hnot
  refine ⟨⟨mask.toList.filterMap MaskFlag.ofChar?⟩, ?_, ?_⟩
  · rw [Mask.ofText, Mask.readFlags_eq, readEach_of_none]
    · rfl
    · simpa only [MaskFlag.isNone_ofChar?] using h
  · rw [Mask.text, map_filterMap_of_read hchars, List.map_id, String.ofList_toList]

theorem ofBytesAndMask_of_ofText {m : Mask} (hlength : bytes.length = mask.length)
    (h : Mask.ofText mask = .ok m) :
    ofBytesAndMask bytes mask = ofSlots (List.zipWith Slot.ofFlag m.flags bytes) := by
  rw [ofBytesAndMask, if_neg (by simp [hlength]), h]
  rfl

theorem map_flag_zipWith {flags : List MaskFlag} (h : bytes.length = flags.length) :
    (List.zipWith Slot.ofFlag flags bytes).map Slot.flag = flags := by
  induction flags generalizing bytes with
  | nil => rfl
  | cons flag flags ih =>
    obtain ⟨b, bytes, rfl⟩ := List.exists_cons_of_length_eq_add_one h
    have hflag : (Slot.ofFlag flag b).flag = flag := by cases flag <;> rfl
    rw [List.zipWith_cons_cons, List.map_cons, hflag, ih (Nat.succ.inj h)]

theorem map_byteOrZero_zipWith (flags : List MaskFlag) (bytes : List UInt8) :
    (List.zipWith Slot.ofFlag flags bytes).map Slot.byteOrZero =
      List.zipWith (fun c b => if c = 'x' then b else 0) (flags.map MaskFlag.char) bytes := by
  have hbyte : ∀ flag b, (Slot.ofFlag flag b).byteOrZero =
      if flag.char = 'x' then b else 0 := by
    intro flag b
    cases flag <;> rfl
  simp only [List.map_zipWith, List.zipWith_map_left, hbyte]

/-- The byte that stands under an exact flag. -/
theorem getElem?_of_zipWith_ofFlag {flags : List MaskFlag} {i : Nat} {b : UInt8}
    (h : (List.zipWith Slot.ofFlag flags bytes)[i]? = some (.exact b)) : bytes[i]? = some b := by
  obtain ⟨flag, byte, -, hbyte, hslot⟩ := List.getElem?_zipWith_eq_some.mp h
  cases flag with
  | exact =>
    cases hslot
    exact hbyte
  | wildcard => cases hslot

theorem isSome_findSome?_byte?_iff (slots : List Slot) :
    (slots.findSome? Slot.byte?).isSome = true ↔ 'x' ∈ (slots.map Slot.flag).map MaskFlag.char := by
  rw [List.findSome?_isSome_iff, List.map_map, List.mem_map]
  refine exists_congr fun slot => and_congr_right fun _ => ?_
  cases slot with
  | any => simp [Slot.byte?, Slot.flag, MaskFlag.char]
  | exact b => simp [Slot.byte?, Slot.flag, MaskFlag.char]

/-- What bytes under a mask come to. Their number is compared with the number of mask characters
first. Then the first character that is neither `x` nor `?` is the fault, and then the missing `x`.
Without a fault the mask is the one that was given, the bytes are those under an `x` with zeros in
between, and the first `x` is the anchor. -/
theorem ofBytesAndMask_outcome (bytes : List UInt8) (mask : String) :
    if bytes.length ≠ mask.length then
      ofBytesAndMask bytes mask = .error (.shapeMismatch bytes.length mask.length)
    else
      match mask.toList.zipIdx.find? fun c => c.1 ≠ 'x' ∧ c.1 ≠ '?' with
      | some (c, index) => ofBytesAndMask bytes mask = .error (.invalidMask index c)
      | none =>
        if 'x' ∉ mask.toList then ofBytesAndMask bytes mask = .error .noAnchor
        else
          ∃ s, ofBytesAndMask bytes mask = .ok s ∧
            s.mask.text = mask ∧ s.length = bytes.length ∧
            s.bytes = List.zipWith (fun c b => if c = 'x' then b else 0) mask.toList bytes ∧
            s.anchorIndex = mask.toList.idxOf 'x' ∧ bytes[s.anchorIndex]? = some s.anchorByte ∧
            s.mask.exactCount = mask.toList.count 'x' ∧
            s.mask.wildcardCount = mask.toList.count '?' ∧ s.offset = 0 := by
  split
  · next hlength => exact ofBytesAndMask_of_length_ne hlength
  next hlength =>
  rw [Decidable.not_not] at hlength
  cases hfirst : mask.toList.zipIdx.find? fun c => c.1 ≠ 'x' ∧ c.1 ≠ '?' with
  | some bad => exact ofBytesAndMask_of_invalid hlength hfirst
  | none =>
    obtain ⟨m, hm, htext⟩ := exists_flags hfirst
    have hread := ofBytesAndMask_of_ofText hlength hm
    have hchars : m.flags.map MaskFlag.char = mask.toList := by rw [← Mask.toList_text, htext]
    have hcount : bytes.length = m.flags.length := by
      rw [hlength, ← String.length_toList, ← hchars, List.length_map]
    have hflags := map_flag_zipWith hcount
    -- There is an anchor exactly if there is an `x`, whatever the bytes are.
    have hanchor := isSome_findSome?_byte?_iff (List.zipWith Slot.ofFlag m.flags bytes)
    rw [hflags, hchars] at hanchor
    show if _ then _ else _
    split
    · next hx => rw [hread, ofSlots_eq_noAnchor (mt hanchor.mp hx)]
    · next hx =>
      rw [Decidable.not_not] at hx
      obtain ⟨s, hs⟩ := exists_ofSlots (hanchor.mpr hx)
      obtain ⟨hslots, hoffset⟩ := slots_of_ofSlots hs
      have hmask : s.mask.text = mask := by rw [Signature.mask, hslots, hflags, htext]
      refine ⟨s, hread.trans hs, hmask, ?_, ?_, ?_, ?_, ?_, ?_, hoffset⟩
      · rw [length, hslots, List.length_zipWith, hcount, Nat.min_self]
      · rw [Signature.bytes, hslots, map_byteOrZero_zipWith, hchars]
      · rw [anchorIndex_eq_idxOf, hmask]
      · have hslot := s.slots_anchorIndex
        rw [hslots] at hslot
        exact getElem?_of_zipWith_ofFlag hslot
      · rw [Mask.exactCount_eq_count, hmask]
      · rw [Mask.wildcardCount_eq_count, hmask]

/-- Lengths and indices count characters: this mask has four bytes. -/
example : ofBytesAndMask [0x55, 0, 0xC3] "xéx" = .error (.invalidMask 1 'é') := by cbv

end Masked

end Signature

end ByteScan
