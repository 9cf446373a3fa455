import ByteScan.Proofs.Database.Layout
import ByteScan.Proofs.Database.Sections

/-!
# A file with one signature

A database file can be made of any text of a signature, as long as it has no line feed in it: the
text goes behind the key of a section, just as it is. The blanks at its ends are lost when the line
is read, but they are not part of any word, so the entry has the signature that the text writes.

* `Database.singleText`: the file.
* `Database.singleEntry`: its entry.

Results:
1. `Signature.ofText_trim`: blanks around the text of a signature.
2. `Database.numberedLines_singleText`: the two lines of the file.
3. `Database.result_parse_singleText`: its one entry, in both modes.
-/

namespace ByteScan

/-! ## 1. Blanks around a signature -/

theorem Signature.ofText_trim (text : String) :
    ofText (String.ofList (Text.trim text.toList)) = ofText text := by
  rw [ofText, Slot.listOfText, String.toList_ofList, Text.fields_trim, ofText, Slot.listOfText]

namespace Database

/-- The file with one section, which has this signature and nothing else in it. -/
def singleText (signature : String) : String :=
  "[signature]\nsignature = " ++ signature ++ "\n"

/-- That section, where `value` is the text of the signature. -/
def singleSection (value : String) : Section :=
  ⟨"signature", 1, [(2, .setting "signature" value)]⟩

/-- The entry of that section. -/
def singleEntry (s : Signature) : Entry :=
  { name := "signature", signature := s, line := 1 }

section Single

variable {signature : String}

/-! ## 2. Lines -/

theorem ofChars_signature (value : List Char) :
    Line.ofChars ("signature ".toList ++ '=' :: value) =
      .setting "signature" (String.ofList (Text.trim value)) := by
  rw [ofChars_setting (by decide) (by decide), if_neg (by decide)]
  congr 1

theorem toList_singleText (signature : String) :
    (singleText signature).toList = "[signature]".toList ++ Text.LineEnd.feed.chars ++
      ("signature ".toList ++ '=' :: ' ' :: signature.toList ++ Text.LineEnd.feed.chars ++ []) := by
  have hfront : "[signature]\nsignature = ".toList =
      "[signature]".toList ++ '\n' :: ("signature ".toList ++ ['=', ' ']) := by decide
  have hfeed : "\n".toList = ['\n'] := by decide
  show ("[signature]\nsignature = " ++ signature ++ "\n").toList = _
  rw [String.toList_append, String.toList_append, hfeed, hfront, Text.LineEnd.chars,
    List.append_nil]
  simp only [List.append_assoc, List.cons_append, List.nil_append]

theorem numberedLines_singleText (h : '\n' ∉ signature.toList) :
    numberedLines (singleText signature) =
      [(1, .header "signature"),
        (2, .setting "signature" (String.ofList (Text.trim signature.toList)))] := by
  have hsetting : '\n' ∉ "signature ".toList ++ '=' :: ' ' :: signature.toList := by
    rw [List.mem_append, List.mem_cons, List.mem_cons]
    rintro (hkey | hequals | hspace | hmem)
    · revert hkey
      decide
    · revert hequals
      decide
    · revert hspace
      decide
    · exact h hmem
  have hlines : (Text.lines (singleText signature).toList).map Text.trim =
      ["[signature]".toList,
        Text.trim ("signature ".toList ++ '=' :: ' ' :: signature.toList)] := by
    rw [toList_singleText, Text.map_trim_lines_append (by decide),
      Text.map_trim_lines_append hsetting]
    rfl
  have hspace : ∀ c ∈ [' '], Text.isBlank c = true := List.forall_mem_singleton.mpr rfl
  have hvalue : Text.trim (' ' :: signature.toList) = Text.trim signature.toList :=
    Text.trim_append_left hspace signature.toList
  have hread := ofChars_signature (' ' :: signature.toList)
  rw [hvalue, Line.ofChars] at hread
  rw [numberedLines_eq, trimmedLines, hlines, numberFrom_cons, numberFrom_cons, hread]
  rfl

/-! ## 3. The entry -/

theorem made_singleSection (value : String) :
    (singleSection value).made = { signature := some (value, 2) } :=
  rfl

section Built

variable {value : String} {s : Signature} (hs : Signature.ofText value = .ok s)
include hs

theorem built?_singleSection : (singleSection value).built? = some (singleEntry s) := by
  rw [Section.built?_eq, made_singleSection]
  simp only [Option.map_some, Option.bind_some, hs, Except.toOption]
  rfl

theorem fault?_singleSection (mode : Mode) : (singleSection value).fault? mode = none := by
  rw [Section.fault?, Section.buildFault?_eq, made_singleSection]
  simp only [hs, ite_self, Option.or_none]
  rfl

end Built

theorem result_parse_singleText (mode : Mode) {s : Signature} (h : '\n' ∉ signature.toList)
    (hs : Signature.ofText signature = .ok s) :
    (parse mode (singleText signature)).result = .ok ⟨[singleEntry s]⟩ := by
  have hvalue : Signature.ofText (String.ofList (Text.trim signature.toList)) = .ok s := by
    rw [Signature.ofText_trim, hs]
  have hsplit : split (numberedLines (singleText signature)) =
      ([], [singleSection (String.ofList (Text.trim signature.toList))]) := by
    rw [numberedLines_singleText h]
    rfl
  rw [result_parse, fault?, entriesIn, hsplit, List.filterMap_cons, built?_singleSection hvalue,
    List.findSome?_cons, fault?_singleSection hvalue]
  rfl

end Single

end Database

end ByteScan
