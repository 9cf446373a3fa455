import ByteScan.Proofs.Signature.Equality
import ByteScan.Proofs.Text.Hex
import ByteScan.Proofs.Text.Trim
import ByteScan.Signature.Masked
import ByteScan.Signature.Text
import Mathlib.Data.Bool.AllAny

/-!
# Signatures read back

A signature can be written as text, and as bytes with a mask. Reading what was written gives the
slots again, so all descriptions of the same slots lead to the same signature or to the same fault.

Results:
1. `Slot.listOfText_text`: the canonical words of any slots are read as these slots.
2. `Mask.ofText_text`: a mask is read from its own characters.
3. `Signature.ofText_slots`, `Signature.ofBytesAndMask_slots`: every constructor of signatures comes
   to `ofSlots`; `Signature.trim_text`: the canonical text of a signature has no blanks around it;
   `Signature.mem_text`: what it is written with.
4. `Signature.ofText_text_withOffset`: a signature that is written and read, and bytes that are given
   in three ways.
-/

namespace ByteScan

/-! ## 1. Words of slots -/

namespace Slot

theorem ofWord?_pair {high low : Char} (h : high ≠ '?') :
    ofWord? [high, low] = (Text.byte? high low).map exact := by
  unfold ofWord?
  split
  · next heq => simp at heq
  · next heq => simp_all
  · next heq =>
    cases heq
    rfl
  · next hother => exact absurd rfl (hother high low)

theorem ofWord?_text (slot : Slot) : ofWord? slot.text.toList = some slot := by
  cases slot with
  | any => rfl
  | exact b =>
    rw [text, Text.toList_byteText, ofWord?_pair (Text.hexDigit_ne_question (Text.high_lt b)),
      Text.byte?_hexDigit]
    rfl

theorem isWord_text (slot : Slot) : Text.IsWord slot.text.toList := by
  cases slot with
  | any =>
    refine ⟨List.cons_ne_nil '?' ['?'], fun c hc => ?_⟩
    obtain rfl : c = '?' := by simpa [text] using hc
    rfl
  | exact b => exact Text.isWord_byteText b

theorem readWords_text (slots : List Slot) (index : Nat) :
    readWords index (slots.map fun slot => slot.text.toList) = .ok slots := by
  induction slots generalizing index with
  | nil => rfl
  | cons slot slots ih =>
    rw [List.map_cons, readWords, ofWord?_text]
    simp only [ih]
    rfl

theorem isWord_of_mem_map (slots : List Slot) :
    ∀ word ∈ slots.map fun slot => slot.text.toList, Text.IsWord word := by
  intro word hword
  obtain ⟨slot, _, rfl⟩ := List.mem_map.mp hword
  exact isWord_text slot

theorem toList_intercalate_text (slots : List Slot) :
    (" ".intercalate (slots.map text)).toList =
      [' '].intercalate (slots.map fun slot => slot.text.toList) := by
  rw [String.toList_intercalate, List.map_map]
  rfl

theorem listOfText_text (slots : List Slot) :
    listOfText (" ".intercalate (slots.map text)) = .ok slots := by
  rw [listOfText, toList_intercalate_text, Text.fields_intercalate (isWord_of_mem_map slots),
    readWords_text]

end Slot

/-! ## 2. Masks -/

namespace Mask

theorem readFlags_char (flags : List MaskFlag) (index : Nat) :
    readFlags index (flags.map MaskFlag.char) = .ok flags := by
  induction flags generalizing index with
  | nil => rfl
  | cons flag flags ih =>
    rw [List.map_cons, readFlags, MaskFlag.ofChar?_char]
    simp only [ih]
    rfl

theorem ofText_text (m : Mask) : ofText m.text = .ok m := by
  rw [ofText, text, String.toList_ofList, readFlags_char]
  rfl

theorem length_text (m : Mask) : m.text.length = m.flags.length := by
  rw [text, String.length_ofList, List.length_map]

end Mask

/-! ## 3. Signatures from slots -/

namespace Signature

theorem ofText_slots (slots : List Slot) :
    ofText (" ".intercalate (slots.map Slot.text)) = ofSlots slots := by
  rw [ofText, Slot.listOfText_text]
  rfl

theorem ofBytesAndMask_slots (slots : List Slot) :
    ofBytesAndMask (slots.map Slot.byteOrZero) (Mask.text ⟨slots.map Slot.flag⟩) =
      ofSlots slots := by
  have hlen : (Mask.text ⟨slots.map Slot.flag⟩).length = (slots.map Slot.byteOrZero).length := by
    rw [Mask.length_text, List.length_map, List.length_map]
  rw [ofBytesAndMask, if_neg (by simpa using hlen), Mask.ofText_text]
  show ofSlots (List.zipWith Slot.ofFlag (slots.map Slot.flag) (slots.map Slot.byteOrZero)) = _
  rw [Slot.zipWith_ofFlag]

theorem trim_text (s : Signature) : Text.trim s.text.toList = s.text.toList := by
  rw [text, Slot.toList_intercalate_text, Text.trim_intercalate (Slot.isWord_of_mem_map s.slots)]

/-- A signature is written with digits, question marks and spaces. -/
theorem mem_text (s : Signature) : ∀ c ∈ s.text.toList, Text.IsHexDigit c ∨ c ∈ ['?', ' '] := by
  rw [text, Slot.toList_intercalate_text]
  refine Text.forall_mem_intercalate (.inr (by decide)) fun word hword => ?_
  obtain ⟨slot, -, rfl⟩ := List.mem_map.mp hword
  cases slot with
  | any => exact List.all_iff_forall_prop.mp (by decide)
  | exact b => exact fun c hc => .inl (Text.isHexDigit_of_mem_byteText b c hc)

theorem feed_not_mem_text (s : Signature) : '\n' ∉ s.text.toList :=
  mt (s.mem_text '\n') (by decide)

theorem ofSlots_slots (s : Signature) : ofSlots s.slots = .ok (s.withOffset 0) :=
  dif_pos s.anchored

/-! ## 4. Round trips -/

/-- Bytes under a mask of `x` characters are the slots of these bytes. -/
theorem ofBytesAndMask_exact (bytes : List UInt8) :
    ofBytesAndMask bytes (String.ofList (List.replicate bytes.length 'x')) = ofBytes bytes := by
  have hbytes : (bytes.map Slot.exact).map Slot.byteOrZero = bytes := by
    rw [List.map_map]
    exact List.map_id bytes
  have hmask : String.ofList (List.replicate bytes.length 'x') =
      Mask.text ⟨(bytes.map Slot.exact).map Slot.flag⟩ := by
    rw [Mask.text, List.map_map, List.map_map]
    exact congrArg String.ofList List.map_const.symm
  have hslots := ofBytesAndMask_slots (bytes.map Slot.exact)
  rw [hbytes, ← hmask] at hslots
  exact hslots

theorem ofText_bytesText (bytes : List UInt8) : ofText (Text.bytesText bytes) = ofBytes bytes := by
  have hslots := ofText_slots (bytes.map Slot.exact)
  rw [List.map_map] at hslots
  exact hslots

/-- The canonical text of a signature, and its bytes with its mask, are read as the signature without
its offset. Bytes alone, their text and their bytes under a mask that is exact throughout lead to the
same signature or the same fault. -/
theorem ofText_text_withOffset (s : Signature) :
    (∃ t, ofText s.text = .ok t ∧ t.withOffset s.offset = s) ∧
      (∃ t, ofBytesAndMask s.bytes s.mask.text = .ok t ∧ t.withOffset s.offset = s) ∧
      ∀ bytes, ofText (Text.bytesText bytes) = ofBytes bytes ∧
        ofBytesAndMask bytes (String.ofList (List.replicate bytes.length 'x')) = ofBytes bytes := by
  refine ⟨⟨s.withOffset 0, ?_, rfl⟩, ⟨s.withOffset 0, ?_, rfl⟩, fun bytes => ?_⟩
  · rw [text, ofText_slots, ofSlots_slots]
  · rw [bytes, mask, ofBytesAndMask_slots, ofSlots_slots]
  · exact ⟨ofText_bytesText bytes, ofBytesAndMask_exact bytes⟩

/-- The canonical text has upper-case digits and one spelling for a wildcard. -/
example : (ofText "e8 ? ?? 00 ff").map text = .ok "E8 ?? ?? 00 FF" := by cbv

end Signature

end ByteScan
