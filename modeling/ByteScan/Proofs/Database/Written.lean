import ByteScan.Proofs.Database.Concatenation
import ByteScan.Proofs.Database.Layout

/-!
# Written database files read back

Reading a file gives the entries that were written, each with the line of its header, however the
file was laid out. The lines of a section are read as one section without a fault, and since every
section begins with a header, sections that are written one after another are read one after another.

Results:
1. `WrittenSection.fault?_lines`, `WrittenSection.entriesIn_lines`: one section.
2. `fault?_sections`, `entriesIn_sections`: some sections.
3. `parse_written`: files.
-/

namespace ByteScan.Database

open Text (Padding)

/-! ## 1. One section -/

theorem foldl_asides {ls : List (List Char)} (h : ∀ cs ∈ ls, IsAside cs) (i : Nat)
    (settings : Section.Settings) :
    (readFrom i ls).foldl Section.Settings.after settings = settings := by
  induction ls generalizing i with
  | nil => rfl
  | cons cs ls ih =>
    obtain ⟨hcs, hls⟩ := List.forall_mem_cons.mp h
    rw [readFrom_cons, List.foldl_cons, hcs.isSilent.after_eq, ih hls]

namespace WrittenSection

variable (s : WrittenSection)

theorem trim_header :
    Text.trim s.header =
      '[' :: s.layout.namePadding.put s.record.name.toList ++ [']'] := by
  rw [header, Padding.trim_put]
  refine Text.trim_eq_self (fun c hc => ?_) (fun c hc => ?_)
  · obtain rfl : '[' = c := Option.some.inj hc
    rfl
  · rw [List.getLast?_concat] at hc
    obtain rfl : ']' = c := Option.some.inj hc
    rfl

theorem ofChars_header : Line.ofChars s.header = .header s.record.name := by
  rw [Line.ofChars, trim_header, Line.ofTrimmed_of_isHeader, Line.nameOf]
  · rw [List.cons_append, List.tail_cons, List.dropLast_concat, Padding.trim_put,
      s.record.name_trimmed, String.ofList_toList]
  · simp [Line.IsHeader, Line.IsSignificant]

theorem ofChars_signatureLine :
    Line.ofChars s.signatureLine = .setting "signature" s.record.signature.text := by
  rw [signatureLine, KeyLayout.ofChars_line _ isKey_signature, Signature.trim_text,
    String.ofList_toList]

theorem ofChars_flagLine :
    Line.ofChars s.flagLine =
      .setting "ep_only" (String.ofList (Text.trim s.flagWord)) := by
  rw [flagLine, KeyLayout.ofChars_line _ isKey_flag]

theorem map_toLower_flagWord :
    (String.ofList (Text.trim s.flagWord)).map Char.toLower =
      if s.record.entryPointOnly then "true" else "false" := by
  rw [flagWord]
  split
  · exact s.layout.trueWord.map_toLower_ofList_trim (by decide)
  · exact s.layout.falseWord.map_toLower_ofList_trim (by decide)

theorem saysTrue_flagWord :
    saysTrue (String.ofList (Text.trim s.flagWord)) = s.record.entryPointOnly := by
  rw [saysTrue, map_toLower_flagWord]
  cases s.record.entryPointOnly <;> decide

theorem saysFalse_flagWord :
    saysFalse (String.ofList (Text.trim s.flagWord)) = !s.record.entryPointOnly := by
  rw [saysFalse, map_toLower_flagWord]
  cases s.record.entryPointOnly <;> decide

theorem asides :
    (∀ cs ∈ s.layout.before, IsAside cs) ∧ (∀ cs ∈ s.layout.between, IsAside cs) ∧
      ∀ cs ∈ s.layout.after, IsAside cs := by
  obtain ⟨hfront, hafter⟩ := List.forall_mem_append.mp s.layout.asides
  obtain ⟨hbefore, hbetween⟩ := List.forall_mem_append.mp hfront
  exact ⟨hbefore, hbetween, hafter⟩

theorem forall_mem_body {P : List Char → Prop} (haside : ∀ cs, IsAside cs → P cs)
    (hsignature : P s.signatureLine) (hflag : P s.flagLine) : ∀ cs ∈ s.body, P cs := by
  obtain ⟨hbefore, hbetween, hafter⟩ := s.asides
  have hfirst : P s.firstLine := by
    rw [firstLine]
    split <;> assumption
  have hsecond : P s.secondLine := by
    rw [secondLine]
    split <;> assumption
  intro cs hcs
  rw [body, List.mem_append, List.mem_cons, List.mem_append, List.mem_cons] at hcs
  obtain h | rfl | h | rfl | h := hcs
  · exact haside cs (hbefore cs h)
  · exact hfirst
  · exact haside cs (hbetween cs h)
  · exact hsecond
  · exact haside cs (hafter cs h)

theorem after_signatureLine (settings : Section.Settings) (number : Nat) :
    settings.after (number, Line.ofChars s.signatureLine) =
      { settings with signature := some (s.record.signature.text, number) } := by
  rw [ofChars_signatureLine]
  rfl

theorem after_flagLine (settings : Section.Settings) (number : Nat) :
    settings.after (number, Line.ofChars s.flagLine) =
      { settings with entryPointOnly := s.record.entryPointOnly } := by
  rw [ofChars_flagLine, ← s.saysTrue_flagWord]
  rfl

/-- Only the two settings of a section count, and their order does not. -/
theorem foldl_body (i : Nat) :
    ∃ number, (readFrom i s.body).foldl Section.Settings.after {} =
      ⟨some (s.record.signature.text, number), s.record.entryPointOnly⟩ := by
  obtain ⟨hbefore, hbetween, hafter⟩ := s.asides
  simp only [body, readFrom_append, readFrom_cons, List.foldl_append, List.foldl_cons,
    foldl_asides hbefore, foldl_asides hbetween, foldl_asides hafter]
  rw [firstLine, secondLine]
  cases s.layout.flagFirst with
  | true =>
    rw [if_pos rfl, if_pos rfl, after_flagLine, after_signatureLine]
    exact ⟨_, rfl⟩
  | false =>
    rw [if_neg Bool.false_ne_true, if_neg Bool.false_ne_true, after_signatureLine, after_flagLine]
    exact ⟨_, rfl⟩

/-- The section that is read from these lines, if `i` lines stand before them. -/
def toSection (i : Nat) : Section where
  name := s.record.name
  line := i + 1
  body := readFrom (i + 1) s.body

theorem forall_mem_toSection {P : Line → Prop} (hsilent : ∀ line, line.IsSilent → P line)
    (hsignature : P (.setting "signature" s.record.signature.text))
    (hflag : P (.setting "ep_only" (String.ofList (Text.trim s.flagWord)))) (i : Nat) :
    ∀ l ∈ (s.toSection i).body, P l.2 := by
  have hbody : ∀ cs ∈ s.body, P (Line.ofChars cs) :=
    s.forall_mem_body (fun cs h => hsilent _ h.isSilent) (s.ofChars_signatureLine ▸ hsignature)
      (s.ofChars_flagLine ▸ hflag)
  intro l hl
  obtain ⟨cs, hcs, heq⟩ := exists_of_mem_readFrom _ _ hl
  exact heq ▸ hbody cs hcs

theorem split_lines (i : Nat) : split (readFrom i s.lines) = ([], [s.toSection i]) := by
  have hbody : ∀ l ∈ (s.toSection i).body, ∀ name, l.2 ≠ .header name :=
    s.forall_mem_toSection (fun _ h => h.ne_header) (fun _ => Line.noConfusion)
      (fun _ => Line.noConfusion) i
  rw [toSection] at hbody
  rw [lines, readFrom_cons, ofChars_header, split_header, split_of_forall_ne_header hbody]
  rfl

theorem lineFault?_eq_none (mode : Mode) (i : Nat) :
    ((s.toSection i).body.findSome? fun l => l.2.fault? mode l.1) = none := by
  have hflag : ∀ number, Line.fault? mode number
      (.setting "ep_only" (String.ofList (Text.trim s.flagWord))) = none := by
    intro number
    rw [Line.fault?, saysTrue_flagWord, saysFalse_flagWord]
    cases s.record.entryPointOnly <;> simp
  have hbody : ∀ l ∈ (s.toSection i).body, ∀ number, l.2.fault? mode number = none :=
    s.forall_mem_toSection (fun _ h => h.fault?_eq_none mode) (fun _ => rfl) hflag i
  exact List.findSome?_eq_none_iff.mpr fun l hl => hbody l hl l.1

theorem ofText_signature :
    Signature.ofText s.record.signature.text = .ok s.record.signature := by
  rw [Signature.text, Signature.ofText_slots, Signature.ofSlots_slots, ← s.record.offset_zero]
  rfl

theorem fault?_lines (mode : Mode) (i : Nat) : fault? mode (readFrom i s.lines) = none := by
  obtain ⟨number, hmade⟩ := s.foldl_body (i + 1)
  have hbuild : (s.toSection i).buildFault? = none := by
    rw [Section.buildFault?_eq, Section.made]
    simp only [toSection, hmade, ofText_signature]
  rw [fault?, split_lines, List.findSome?_nil, Option.none_or, List.findSome?_singleton,
    Section.fault?, lineFault?_eq_none, hbuild, ite_self, Option.none_or]

theorem entriesIn_lines (i : Nat) :
    entriesIn (readFrom i s.lines) = [s.record.entry (i + 1)] := by
  obtain ⟨number, hmade⟩ := s.foldl_body (i + 1)
  have hbuilt : (s.toSection i).built? = some (s.record.entry (i + 1)) := by
    rw [Section.built?_eq, Section.made]
    simp only [toSection, hmade, Option.map_some, Option.bind_some, ofText_signature]
    rfl
  rw [entriesIn, split_lines, List.filterMap_cons_some hbuilt, List.filterMap_nil]

theorem oneLine : ∀ cs ∈ s.lines, '\n' ∉ cs := by
  have hname : '\n' ∉ s.layout.namePadding.put s.record.name.toList :=
    s.layout.namePadding.not_mem_put s.layout.namePadding.oneLine s.record.name_oneLine
  have hheader : '\n' ∉ s.header :=
    s.layout.headerPadding.not_mem_put s.layout.headerPadding.oneLine (by simp [hname])
  have hflag : '\n' ∉ s.flagWord := by
    rw [flagWord]
    split
    · exact s.layout.trueWord.not_mem rfl (by decide)
    · exact s.layout.falseWord.not_mem rfl (by decide)
  refine List.forall_mem_cons.mpr ⟨hheader, s.forall_mem_body (fun _ h => h.oneLine) ?_ ?_⟩
  · exact s.layout.signature.oneLine isKey_signature (Signature.feed_not_mem_text _)
  · exact s.layout.flag.oneLine isKey_flag hflag

end WrittenSection

/-! ## 2. Some sections -/

section Sections

variable (sections : List WrittenSection) (i : Nat)

/-- Sections begin with a header. -/
theorem front_sections :
    (split (readFrom i (sections.flatMap WrittenSection.lines))).1.filter saysSomething = [] := by
  cases sections with
  | nil => rfl
  | cons s sections =>
    rw [List.flatMap_cons, WrittenSection.lines, List.cons_append, readFrom_cons, s.ofChars_header,
      split_header]
    rfl

theorem fault?_sections (mode : Mode) :
    fault? mode (readFrom i (sections.flatMap WrittenSection.lines)) = none := by
  induction sections generalizing i with
  | nil => rfl
  | cons s sections ih =>
    rw [List.flatMap_cons, readFrom_append, fault?_append (front_sections sections _),
      s.fault?_lines, ih, Option.none_or]

theorem entriesIn_sections :
    entriesIn (readFrom i (sections.flatMap WrittenSection.lines)) =
      sections.mapIdx fun j s => s.record.entry
        (i + ((sections.take j).flatMap WrittenSection.lines).length + 1) := by
  induction sections generalizing i with
  | nil => rfl
  | cons s sections ih =>
    rw [List.flatMap_cons, readFrom_append, entriesIn_append (front_sections sections _),
      s.entriesIn_lines, ih, List.mapIdx_cons]
    simp only [List.take_succ_cons, List.flatMap_cons, List.length_append, Nat.add_assoc]
    rfl

end Sections

/-! ## 3. Files -/

namespace WrittenFile

variable (f : WrittenFile)

theorem trimmedLines_text : trimmedLines f.text = f.lines.map Text.trim := by
  have honeLine : ∀ cs ∈ f.lines, '\n' ∉ cs := by
    refine List.forall_mem_append.mpr ⟨fun cs hcs => (f.remarks cs hcs).1, fun cs hcs => ?_⟩
    obtain ⟨s, _, hmem⟩ := List.mem_flatMap.mp hcs
    exact s.oneLine cs hmem
  rw [trimmedLines, text, String.toList_ofList, Text.map_trim_lines_joinLines honeLine f.last]

theorem numberedLines_text :
    numberedLines f.text =
      readFrom 0 f.front ++ readFrom f.front.length (f.sections.flatMap WrittenSection.lines) := by
  rw [numberedLines_eq, trimmedLines_text, ← readFrom, lines, readFrom_append, Nat.zero_add]

theorem filter_front : (readFrom 0 f.front).filter saysSomething = [] := by
  refine List.filter_eq_nil_iff.mpr fun l hl => ?_
  obtain ⟨cs, hcs, heq⟩ := exists_of_mem_readFrom _ _ hl
  rw [saysSomething, heq, (f.remarks cs hcs).ofChars_eq]
  decide

theorem result_parse_text (mode : Mode) :
    (parse mode f.text).result = .ok ⟨f.sections.mapIdx fun j s =>
      s.record.entry (f.headerIndex j + 1)⟩ := by
  have hfault : fault? mode (readFrom 0 f.front) = none := by
    rw [← fault?_significant, filter_front]
    rfl
  have hentries : entriesIn (readFrom 0 f.front) = [] := by
    rw [← entriesIn_significant, filter_front]
    rfl
  have hsections := front_sections f.sections f.front.length
  rw [result_parse, numberedLines_text, fault?_append hsections, entriesIn_append hsections,
    hfault, hentries, fault?_sections, entriesIn_sections]
  rfl

/-- The header of a section stands where it is counted. -/
theorem getElem?_lines {j : Nat} {s : WrittenSection} (h : f.sections[j]? = some s) :
    f.lines[f.headerIndex j]? = some s.header := by
  obtain ⟨hj, hs⟩ := List.getElem?_eq_some_iff.mp h
  have hsections : f.sections = f.sections.take j ++ s :: f.sections.drop (j + 1) := by
    rw [← hs, ← List.drop_eq_getElem_cons hj, List.take_append_drop]
  -- The lines are cut where the header stands that is looked for.
  have hlines : f.lines = (f.front ++ (f.sections.take j).flatMap WrittenSection.lines) ++
      s.header :: (s.body ++ (f.sections.drop (j + 1)).flatMap WrittenSection.lines) := by
    rw [lines, List.append_assoc, ← List.cons_append, ← WrittenSection.lines, ← List.flatMap_cons,
      ← List.flatMap_append, ← hsections]
  rw [hlines, headerIndex, ← List.length_append, List.getElem?_append_right le_rfl,
    Nat.sub_self, List.getElem?_cons_zero]

end WrittenFile

/-- Looking a name up gives the first entry of that name. -/
theorem get?_eq_some_iff (d : Database) (name : String) (e : Entry) :
    d.get? name = some e ↔ e.name = name ∧
      ∃ earlier later, d.entries = earlier ++ e :: later ∧ ∀ e' ∈ earlier, e'.name ≠ name := by
  rw [get?, List.find?_eq_some_iff_append]
  simp

/-- Every list of records can be written, and every file that is written is read in both modes. Its
entries are the records in their order, the line of an entry is that of its header, and a name stands
for the first record that has it. -/
theorem parse_written (mode : Mode) :
    (∀ records : List Record, ∃ f : WrittenFile, f.sections.map WrittenSection.record = records) ∧
    ∀ f : WrittenFile, ∃ d, (parse mode f.text).result = .ok d ∧
      d.entries = f.sections.mapIdx (fun j s => s.record.entry (f.headerIndex j + 1)) ∧
      (∀ j s, f.sections[j]? = some s →
        (trimmedLines f.text)[f.headerIndex j]? = some (Text.trim s.header)) ∧
      ∀ name e, d.get? name = some e ↔ e.name = name ∧
        ∃ earlier later, d.entries = earlier ++ e :: later ∧ ∀ e' ∈ earlier, e'.name ≠ name := by
  refine ⟨fun records => ⟨.plain records, WrittenFile.records_plain records⟩, fun f =>
    ⟨_, f.result_parse_text mode, rfl, fun j s hs => ?_, get?_eq_some_iff _⟩⟩
  rw [f.trimmedLines_text, List.getElem?_map, f.getElem?_lines hs, Option.map_some]

end ByteScan.Database
