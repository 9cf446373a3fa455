import ByteScan.Proofs.Database.Sections
import ByteScan.Proofs.Signature.RoundTrip
import ByteScan.Proofs.Text.Lines

/-!
# How a database file is written

A database file can be written in many ways: with blanks around everything, in any case of the
letters of keys and flags, with the two settings of an entry in either order, and with blank lines,
comments and other settings in between. All of this is the writer's choice and says nothing.

* `IsRemark`, `IsAside`: lines that change no entry.
* `Record`, `Layout`: what a section says, and how it is written.
* `WrittenFile`: a file, with the text that is written for it.

Results:
1. `WrittenFile.records_plain`: all records can be written.
2. `IsAside.isSilent`, `KeyLayout.ofChars_line`: what lines are read as.
-/

namespace ByteScan.Database

open Text (Padding Spelling LineEnd)

/-! ## Definitions -/

/-- A line that can stand anywhere: a blank line or a comment. -/
def IsRemark (cs : List Char) : Prop :=
  '\n' ∉ cs ∧ ¬ Line.IsSignificant (Text.trim cs)

/-- A line that can stand in a section without a change to its entry. The key of another setting is
what stands before the first `=`. If it began with `[`, the line might be a header. -/
inductive IsAside : List Char → Prop where
  | remark {cs : List Char} (h : IsRemark cs) : IsAside cs
  | setting {key value : List Char} (hfeed : '\n' ∉ key ++ value) (hequals : '=' ∉ key)
      (hbracket : (Text.trim key).head? ≠ some '[')
      (hsignature : (Text.trim key).map Char.toLower ≠ "signature".toList)
      (hflag : (Text.trim key).map Char.toLower ≠ "ep_only".toList) :
      IsAside (key ++ '=' :: value)

/-- What a section of a file is to say. A file has no room for an offset. -/
structure Record where
  name : String
  signature : Signature
  entryPointOnly : Bool
  name_trimmed : Text.trim name.toList = name.toList
  name_oneLine : '\n' ∉ name.toList
  offset_zero : signature.offset = 0

/-- The entry for a record whose header stands in this line. -/
def Record.entry (r : Record) (line : Nat) : Entry where
  name := r.name
  signature := r.signature
  entryPointOnly := r.entryPointOnly
  line := line

/-- How a setting is written. -/
structure KeyLayout (key : String) where
  spelling : Spelling key
  keyPadding : Padding
  valuePadding : Padding

/-- The line that gives a value to the key. -/
def KeyLayout.line {key : String} (l : KeyLayout key) (value : List Char) : List Char :=
  l.keyPadding.put l.spelling.chars ++ '=' :: l.valuePadding.put value

/-- How a section is written. -/
structure Layout where
  headerPadding : Padding
  namePadding : Padding
  signature : KeyLayout "signature"
  flag : KeyLayout "ep_only"
  trueWord : Spelling "true"
  falseWord : Spelling "false"
  flagFirst : Bool
  /-- The lines behind the header, between the two settings and behind both. -/
  before : List (List Char)
  between : List (List Char)
  after : List (List Char)
  asides : ∀ cs ∈ before ++ between ++ after, IsAside cs

/-- A section as it is written. -/
structure WrittenSection where
  record : Record
  layout : Layout

namespace WrittenSection

variable (s : WrittenSection)

def header : List Char :=
  s.layout.headerPadding.put ('[' :: s.layout.namePadding.put s.record.name.toList ++ [']'])

def signatureLine : List Char :=
  s.layout.signature.line s.record.signature.text.toList

def flagWord : List Char :=
  if s.record.entryPointOnly then s.layout.trueWord.chars else s.layout.falseWord.chars

def flagLine : List Char :=
  s.layout.flag.line s.flagWord

/-- The first of the two settings. -/
def firstLine : List Char :=
  if s.layout.flagFirst then s.flagLine else s.signatureLine

/-- The second of the two settings. -/
def secondLine : List Char :=
  if s.layout.flagFirst then s.signatureLine else s.flagLine

/-- The lines behind the header. -/
def body : List (List Char) :=
  s.layout.before ++ s.firstLine :: (s.layout.between ++ s.secondLine :: s.layout.after)

def lines : List (List Char) :=
  s.header :: s.body

end WrittenSection

/-- A file as it is written. -/
structure WrittenFile where
  /-- The lines before the first header. -/
  front : List (List Char)
  sections : List WrittenSection
  ends : Nat → LineEnd
  /-- Whether the last line has an end. -/
  closed : Bool
  remarks : ∀ cs ∈ front, IsRemark cs
  /-- A last line with nothing in it and without an end would be no line. -/
  last : closed = true ∨ (front ++ sections.flatMap WrittenSection.lines).getLast? ≠ some []

namespace WrittenFile

variable (f : WrittenFile)

def lines : List (List Char) :=
  f.front ++ f.sections.flatMap WrittenSection.lines

def text : String :=
  String.ofList (Text.joinLines f.closed f.ends f.lines)

/-- How many lines stand before the header of a section. -/
def headerIndex (j : Nat) : Nat :=
  f.front.length + ((f.sections.take j).flatMap WrittenSection.lines).length

end WrittenFile

/-! ## 1. The plain layout -/

/-- A word in lower case. -/
def plainSpelling (word : String) (h : word.toList.map Char.toLower = word.toList) : Spelling word :=
  ⟨word.toList, h⟩

/-- No blanks around a text. -/
def noPadding : Padding := ⟨[], [], (fun _ hc => nomatch hc), by decide⟩

/-- A setting with a space on either side of its `=`. -/
def KeyLayout.plain {key : String} (spelling : Spelling key) : KeyLayout key where
  spelling := spelling
  keyPadding := ⟨[], [' '], List.forall_mem_singleton.mpr rfl, by decide⟩
  valuePadding := ⟨[' '], [], List.forall_mem_singleton.mpr rfl, by decide⟩

/-- Lower case, and nothing that need not be there. -/
def Layout.plain : Layout where
  headerPadding := noPadding
  namePadding := noPadding
  signature := .plain (plainSpelling "signature" (by decide))
  flag := .plain (plainSpelling "ep_only" (by decide))
  trueWord := plainSpelling "true" (by decide)
  falseWord := plainSpelling "false" (by decide)
  flagFirst := false
  before := []
  between := []
  after := []
  asides := by simp

namespace WrittenFile

/-- The plain file for some records. -/
def plain (records : List Record) : WrittenFile where
  front := []
  sections := records.map fun r => ⟨r, .plain⟩
  ends := fun _ => .feed
  closed := true
  remarks := by simp
  last := .inl rfl

theorem records_plain (records : List Record) :
    (plain records).sections.map WrittenSection.record = records := by
  rw [plain, List.map_map]
  exact List.map_id records

example : (plain [⟨"A", ⟨[.exact 0x90, .any], 0, rfl⟩, true, by decide, by decide, rfl⟩]).text =
    "[A]\nsignature = 90 ??\nep_only = true\n" := by
  decide

end WrittenFile

/-! ## 2. Lines that are read -/

/-- A line that changes no settings. -/
def Line.IsSilent (line : Line) : Prop :=
  line = .ignored ∨
    ∃ key value, line = .setting key value ∧ key ≠ "signature" ∧ key ≠ "ep_only"

theorem Line.IsSilent.ne_header {line : Line} (h : line.IsSilent) (name : String) :
    line ≠ .header name := by
  obtain rfl | ⟨key, value, rfl, -, -⟩ := h <;> exact Line.noConfusion

theorem Line.IsSilent.fault?_eq_none {line : Line} (h : line.IsSilent) (mode : Mode)
    (number : Nat) : line.fault? mode number = none := by
  obtain rfl | ⟨key, value, rfl, -, hflag⟩ := h
  · rfl
  · exact if_neg fun hfault => hflag hfault.1

theorem Line.IsSilent.after_eq {line : Line} (h : line.IsSilent) (settings : Section.Settings)
    (number : Nat) : settings.after (number, line) = settings := by
  obtain rfl | ⟨key, value, rfl, hsignature, hflag⟩ := h
  · rfl
  · rw [Section.Settings.after, Line.value?, Line.value?, if_neg hsignature, if_neg hflag]
    rfl

section Setting

variable {key value : List Char}

theorem trim_setting (key value : List Char) :
    Text.trim (key ++ '=' :: value) =
      key.dropWhile Text.isBlank ++ '=' :: value.rdropWhile Text.isBlank :=
  Text.trim_append_cons rfl key value

theorem head?_trim_setting (key value : List Char) :
    (Text.trim (key ++ '=' :: value)).head? = (Text.trim key).head?.or (some '=') := by
  rw [trim_setting, List.head?_append, Text.head?_trim, List.head?_cons]

section NoEquals

variable (hequals : '=' ∉ key)
include hequals

theorem ne_equals_of_mem_dropWhile :
    ∀ c ∈ key.dropWhile Text.isBlank, decide (c ≠ '=') = true := by
  intro c hc
  exact decide_eq_true fun heq => hequals (heq ▸ (List.dropWhile_suffix _).subset hc)

theorem keyOf_trim_setting (value : List Char) :
    Line.keyOf (Text.trim (key ++ '=' :: value)) =
      String.ofList ((Text.trim key).map Char.toLower) := by
  rw [Line.keyOf, trim_setting,
    List.takeWhile_append_of_pos (ne_equals_of_mem_dropWhile hequals),
    List.takeWhile_cons_of_neg (by decide), List.append_nil, Text.trim_dropWhile]

theorem valueOf_trim_setting (value : List Char) :
    Line.valueOf (Text.trim (key ++ '=' :: value)) = String.ofList (Text.trim value) := by
  rw [Line.valueOf, trim_setting,
    List.dropWhile_append_of_pos (ne_equals_of_mem_dropWhile hequals),
    List.dropWhile_cons_of_neg (by decide), List.tail_cons, Text.trim_rdropWhile]

/-- A setting whose key does not begin like a header. It might still begin like a comment. -/
theorem ofChars_setting (hbracket : (Text.trim key).head? ≠ some '[') :
    Line.ofChars (key ++ '=' :: value) =
      if (Text.trim key).head? = some ';' ∨ (Text.trim key).head? = some '#' then .ignored
      else .setting (String.ofList ((Text.trim key).map Char.toLower))
        (String.ofList (Text.trim value)) := by
  -- The line begins as its key does, or with the `=` if nothing is left of the key.
  have hhead : ∀ c ≠ '=', (Text.trim (key ++ '=' :: value)).head? = some c ↔
      (Text.trim key).head? = some c := by
    intro c hc
    rw [head?_trim_setting]
    cases (Text.trim key).head? with
    | none => simpa using hc.symm
    | some d => rw [Option.some_or]
  have hmem : '=' ∈ Text.trim (key ++ '=' :: value) := by
    rw [trim_setting]
    exact List.mem_append_right _ List.mem_cons_self
  split
  · next hcomment =>
    refine Line.ofTrimmed_of_not_significant fun hsignificant => ?_
    obtain hsemi | hhash := hcomment
    · exact hsignificant.2.1 ((hhead ';' (by decide)).mpr hsemi)
    · exact hsignificant.2.2 ((hhead '#' (by decide)).mpr hhash)
  · next hcomment =>
    obtain ⟨hsemi, hhash⟩ := not_or.mp hcomment
    have hsignificant : Line.IsSignificant (Text.trim (key ++ '=' :: value)) :=
      ⟨List.ne_nil_of_mem hmem, mt (hhead ';' (by decide)).mp hsemi,
        mt (hhead '#' (by decide)).mp hhash⟩
    have hheader : ¬ Line.IsHeader (Text.trim (key ++ '=' :: value)) :=
      fun h => hbracket ((hhead '[' (by decide)).mp h.2.1)
    rw [Line.ofChars, Line.ofTrimmed_of_mem hsignificant hheader hmem, keyOf_trim_setting hequals,
      valueOf_trim_setting hequals]

end NoEquals

end Setting

theorem IsRemark.ofChars_eq {cs : List Char} (h : IsRemark cs) :
    Line.ofChars cs = .ignored :=
  Line.ofTrimmed_of_not_significant h.2

namespace IsAside

variable {cs : List Char}

theorem isSilent (h : IsAside cs) : (Line.ofChars cs).IsSilent := by
  cases h with
  | remark h => exact .inl h.ofChars_eq
  | setting hfeed hequals hbracket hsignature hflag =>
    rw [ofChars_setting hequals hbracket]
    split
    · exact .inl rfl
    · refine .inr ⟨_, _, rfl, fun heq => hsignature ?_, fun heq => hflag ?_⟩
      · rw [← heq, String.toList_ofList]
      · rw [← heq, String.toList_ofList]

theorem oneLine (h : IsAside cs) : '\n' ∉ cs := by
  cases h with
  | remark h => exact h.1
  | setting hfeed hequals hbracket hsignature hflag => simpa using hfeed

end IsAside

/-- A key that is found again in all its spellings. -/
structure IsKey (key : String) : Prop where
  trimmed : Text.trim key.toList = key.toList
  oneLine : '\n' ∉ key.toList
  noEquals : '=' ∉ key.toList
  noBracket : key.toList.head? ≠ some '['
  noComment : key.toList.head? ≠ some ';' ∧ key.toList.head? ≠ some '#'

theorem isKey_signature : IsKey "signature" :=
  ⟨by decide, by decide, by decide, by decide, by decide⟩

theorem isKey_flag : IsKey "ep_only" :=
  ⟨by decide, by decide, by decide, by decide, by decide⟩

namespace KeyLayout

variable {key : String} (l : KeyLayout key) (hkey : IsKey key) {value : List Char}
include hkey

theorem ofChars_line :
    Line.ofChars (l.line value) =
      .setting key (String.ofList (Text.trim value)) := by
  have hlower : (Text.trim (l.keyPadding.put l.spelling.chars)).map Char.toLower = key.toList := by
    rw [l.spelling.map_toLower_trim_put, hkey.trimmed]
  have hequals : '=' ∉ l.keyPadding.put l.spelling.chars :=
    l.keyPadding.not_mem_put (l.keyPadding.not_mem_of_not_blank rfl)
      (l.spelling.not_mem rfl hkey.noEquals)
  -- A mark is no letter, so a spelling begins with it only if the key does.
  have hfirst : ∀ c : Char, c.toLower = c → key.toList.head? ≠ some c →
      (Text.trim (l.keyPadding.put l.spelling.chars)).head? ≠ some c := by
    intro c hself hne hhead
    refine hne ?_
    rw [← hlower, List.head?_map, hhead, Option.map_some, hself]
  have hcomment := not_or.mpr ⟨hfirst ';' rfl hkey.noComment.1, hfirst '#' rfl hkey.noComment.2⟩
  rw [line, ofChars_setting hequals (hfirst '[' rfl hkey.noBracket), if_neg hcomment, hlower,
    String.ofList_toList, l.valuePadding.trim_put]

theorem oneLine (h : '\n' ∉ value) : '\n' ∉ l.line value := by
  have hspelling : '\n' ∉ l.keyPadding.put l.spelling.chars :=
    l.keyPadding.not_mem_put l.keyPadding.oneLine (l.spelling.not_mem rfl hkey.oneLine)
  have hvalue : '\n' ∉ l.valuePadding.put value :=
    l.valuePadding.not_mem_put l.valuePadding.oneLine h
  simp [line, hspelling, hvalue]

end KeyLayout

end ByteScan.Database
