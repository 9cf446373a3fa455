import ByteScan.Proofs.Report.Accounting
import ByteScan.Proofs.Signature.RoundTrip
import ByteScan.Proofs.Text.Decimal
import ByteScan.Proofs.Text.Hex
import ByteScan.Report.Text
import Mathlib.Data.Bool.AllAny

/-!
# What the text of a report says

The text of a report is cut into its lines at the line feeds, and a line says by its first characters
what it is about. A name may look like anything, also like another line, as long as it has no line
feed in it. So the source is found in the text, and for each finding its name and whether it is a hit,
and for a hit the signature with every position and the bytes that are shown for it.

* `Finding.Made`: a finding that was made for a signature and a region.
* `Finding.ShownAlike`: two findings of which the text says the same.
* `Report.lineTexts`: the lines of the text.

Results:
1. `append_cons_inj_first`, `append_cons_inj_last`, `flatMap_feed_inj`: texts cut at a character.
2. `positionText_inj`, `Size.not_mem_text`: positions and sizes.
3. `Finding.titleText_inj`, `Finding.hitLine_injective`: the lines of a finding.
4. `Report.toList_text`, `Report.lineTexts_eq_iff`: the lines of a report.
5. `Report.text_eq_iff`: the text of a report.
-/

namespace ByteScan

/-! ## Definitions -/

namespace Finding

/-- The finding was made for some signature, positions and region. -/
def Made (f : Finding) : Prop :=
  ∃ s positions region, f = ofPositions f.name s positions region

/-- The text says the same of the two findings: their name, whether they are hits, and if so their
signature, positions and bytes. -/
structure ShownAlike (f g : Finding) : Prop where
  name : f.name = g.name
  isHit : f.isHit = g.isHit
  hit : f.isHit = true →
    f.signature = g.signature ∧ f.positions = g.positions ∧ f.contexts = g.contexts

/-- The line with the name. -/
def titleText (f : Finding) : List Char :=
  if f.isHit then ['[', '+', ']', ' '] ++ f.name.toList ++ ':' :: ' ' :: f.signature.toList
  else ['[', '-', ']', ' '] ++ f.name.toList ++ ": no match".toList

/-- The positions, each with the bytes that are shown for it. -/
def hits (f : Finding) : List (Int64 × String) :=
  f.positions.zip f.contexts

/-- The line for a position. -/
def hitLine (hit : Int64 × String) : List Char :=
  [' ', ' ', ' ', ' '] ++ (positionText hit.1).toList ++ ' ' :: ' ' :: hit.2.toList

/-- The lines of a finding. -/
def lineTexts (f : Finding) : List (List Char) :=
  f.titleText :: f.hits.map hitLine

end Finding

namespace Report

/-- The first line. -/
def headLine (r : Report) : List Char :=
  ['[', '*', ']', ' '] ++ "Scanned ".toList ++ r.source.toList ++ [' '] ++
    '(' :: ((Size.text r.regionSize).toList ++ [')'])

/-- The last line. -/
def sumLine (r : Report) : List Char :=
  ['[', '*', ']', ' '] ++ (toString r.matchedSignatures).toList ++ " of ".toList ++
    (toString r.findings.length).toList ++ " signature(s) matched, ".toList ++
    (toString r.totalHits).toList ++ " hit(s)".toList

/-- The lines of the text. -/
def lineTexts (r : Report) : List (List Char) :=
  r.headLine :: (r.findings.flatMap Finding.lineTexts ++ [r.sumLine])

end Report

/-! ## 1. Texts cut at a character -/

section Cutting

variable {c : Char} {xs xs' ys ys' : List Char}

/-- A text is cut at the first place where a character stands. -/
theorem append_cons_inj_first (h : c ∉ xs) (h' : c ∉ xs') :
    xs ++ c :: ys = xs' ++ c :: ys' ↔ xs = xs' ∧ ys = ys' := by
  constructor
  · intro heq
    have hplace := congrArg (List.idxOf c) heq
    rw [List.idxOf_append_of_notMem h, List.idxOf_append_of_notMem h', List.idxOf_cons_self,
      List.idxOf_cons_self] at hplace
    obtain ⟨hxs, hys⟩ := List.append_inj heq hplace
    exact ⟨hxs, (List.cons.inj hys).2⟩
  · rintro ⟨rfl, rfl⟩
    rfl

/-- A text is cut at the last place where a character stands. -/
theorem append_cons_inj_last (h : c ∉ ys) (h' : c ∉ ys') :
    xs ++ c :: ys = xs' ++ c :: ys' ↔ xs = xs' ∧ ys = ys' := by
  have hreverse : ∀ xs ys : List Char, (xs ++ c :: ys).reverse = ys.reverse ++ c :: xs.reverse := by
    simp
  rw [← List.reverse_inj, hreverse, hreverse,
    append_cons_inj_first (by rwa [List.mem_reverse]) (by rwa [List.mem_reverse]),
    List.reverse_inj, List.reverse_inj, and_comm]

/-- A list is cut at the first place where a property does not hold. -/
theorem append_inj_of_forall {α : Type} {p : α → Prop} [DecidablePred p] {xs xs' ys ys' : List α}
    (hxs : ∀ x ∈ xs, p x) (hxs' : ∀ x ∈ xs', p x) (hys : ∀ y ∈ ys.head?, ¬ p y)
    (hys' : ∀ y ∈ ys'.head?, ¬ p y) (h : xs ++ ys = xs' ++ ys') : xs = xs' ∧ ys = ys' := by
  have hcut : ∀ {xs ys : List α}, (∀ x ∈ xs, p x) → (∀ y ∈ ys.head?, ¬ p y) →
      (xs ++ ys).takeWhile (fun x => decide (p x)) = xs := by
    intro xs ys hxs hys
    rw [List.takeWhile_append_of_pos (fun x hx => decide_eq_true (hxs x hx))]
    cases ys with
    | nil => exact List.append_nil xs
    | cons y ys =>
      rw [List.takeWhile_cons_of_neg (by simpa using hys y rfl), List.append_nil]
  have heq : xs = xs' := (hcut hxs hys).symm.trans ((congrArg _ h).trans (hcut hxs' hys'))
  exact ⟨heq, List.append_cancel_left (heq ▸ h)⟩

end Cutting

theorem map_eq_map_of_forall₂ {α β : Type} {R : α → α → Prop} {F : α → β} {xs ys : List α}
    (h : List.Forall₂ R xs ys) (hF : ∀ {x y}, R x y → F x = F y) : xs.map F = ys.map F := by
  have heq : List.Forall₂ (· = ·) (xs.map F) (ys.map F) :=
    List.forall₂_map_left_iff.mpr (List.forall₂_map_right_iff.mpr (h.imp fun _ _ => hF))
  rwa [List.forall₂_eq_eq_eq] at heq

theorem splitOn_flatMap_feed {ls : List (List Char)} (h : ∀ cs ∈ ls, '\n' ∉ cs) :
    (ls.flatMap fun cs => cs ++ ['\n']).splitOn '\n' = ls ++ [[]] := by
  induction ls with
  | nil => rfl
  | cons cs ls ih =>
    obtain ⟨hcs, hls⟩ := List.forall_mem_cons.mp h
    rw [List.flatMap_cons, List.append_assoc, List.singleton_append, List.splitOn_append_cons_self,
      List.splitOn_eq_singleton hcs, ih hls, List.singleton_append, List.cons_append]

/-- Lines are found again when each of them has been ended. -/
theorem flatMap_feed_inj {ls ms : List (List Char)} (hls : ∀ cs ∈ ls, '\n' ∉ cs)
    (hms : ∀ cs ∈ ms, '\n' ∉ cs)
    (h : (ls.flatMap fun cs => cs ++ ['\n']) = ms.flatMap fun cs => cs ++ ['\n']) : ls = ms := by
  have hsplit := congrArg (List.splitOn '\n') h
  rw [splitOn_flatMap_feed hls, splitOn_flatMap_feed hms] at hsplit
  exact List.append_cancel_right hsplit

/-! ## 2. Positions and sizes -/

section Position

variable {p q : Int64}

theorem toList_positionText (p : Int64) : (positionText p).toList =
    (if p < 0 then ['-', '0', 'x'] else ['0', 'x']) ++ (Text.paddedHex 8 p.toInt.natAbs).toList := by
  rw [positionText, String.toList_append]
  split <;> rfl

theorem mem_positionText {c : Char} (h : c ∈ (positionText p).toList) :
    Text.IsHexDigit c ∨ c ∈ ['-', 'x'] := by
  have hmark : ∀ c ∈ if p < 0 then ['-', '0', 'x'] else ['0', 'x'],
      Text.IsHexDigit c ∨ c ∈ ['-', 'x'] := by
    split <;> exact List.all_iff_forall_prop.mp (by decide)
  rw [toList_positionText, List.mem_append] at h
  exact h.elim (hmark c) fun hdigit => .inl (Text.isHexDigit_of_mem_paddedHex 8 _ c hdigit)

theorem not_mem_positionText {c : Char} (h : ¬ (Text.IsHexDigit c ∨ c ∈ ['-', 'x'])) :
    c ∉ (positionText p).toList :=
  mt mem_positionText h

/-- A position is given by its text, down to the least one. -/
theorem positionText_inj (h : positionText p = positionText q) : p = q := by
  have htext := congrArg String.toList h
  rw [toList_positionText, toList_positionText] at htext
  by_cases hsign : p < 0 ↔ q < 0
  · rw [if_congr hsign rfl rfl, List.append_cancel_left_eq, String.toList_inj] at htext
    have hmagnitude := Text.paddedHex_inj htext
    rw [Int64.lt_iff_toInt_lt, Int64.lt_iff_toInt_lt, Int64.toInt_zero] at hsign
    rw [← Int64.toInt_inj]
    omega
  · -- Only one of the two texts begins with a minus sign.
    by_cases hp : p < 0 <;> by_cases hq : q < 0 <;> simp [hp, hq] at hsign htext

end Position

namespace Size

/-- A size is written with digits, a point, a blank and the letters of its unit. -/
theorem mem_text (n : Nat) :
    ∀ c ∈ (text n).toList, c.isDigit = true ∨ c ∈ " .BKMGTi".toList := by
  have hnumber (n : Nat) : ∀ c ∈ (toString n).toList, c.isDigit = true ∨ c ∈ " .BKMGTi".toList :=
    fun c hc => .inl (Text.isDigit_of_mem_toString n c hc)
  have hunit (unit : Unit) : ∀ c ∈ unit.name.toList, c.isDigit = true ∨ c ∈ " .BKMGTi".toList := by
    cases unit <;> exact List.all_iff_forall_prop.mp (by decide)
  rw [text]
  split
  · rw [String.toList_append, List.forall_mem_append]
    exact ⟨hnumber n, List.all_iff_forall_prop.mp (by decide)⟩
  · simp only [String.toList_append, List.forall_mem_append]
    exact ⟨⟨⟨⟨hnumber _, List.all_iff_forall_prop.mp (by decide)⟩, hnumber _⟩,
      List.all_iff_forall_prop.mp (by decide)⟩, hunit _⟩

theorem not_mem_text (n : Nat) {c : Char} (h : ¬ (c.isDigit = true ∨ c ∈ " .BKMGTi".toList)) :
    c ∉ (text n).toList :=
  mt (mem_text n c) h

end Size

/-! ## 3. The lines of a finding -/

namespace Finding

section Made

variable {f g : Finding}

theorem Made.length_contexts (h : f.Made) : f.contexts.length = f.positions.length := by
  obtain ⟨s, positions, region, hf⟩ := h
  rw [hf]
  exact List.length_map _

theorem Made.not_mem_signature (h : f.Made) {c : Char}
    (hc : ¬ (Text.IsHexDigit c ∨ c ∈ ['?', ' '])) : c ∉ f.signature.toList := by
  obtain ⟨s, positions, region, hf⟩ := h
  rw [hf]
  exact mt (s.mem_text c) hc

theorem Made.feed_not_mem_context (h : f.Made) : ∀ context ∈ f.contexts, '\n' ∉ context.toList := by
  obtain ⟨s, positions, region, hf⟩ := h
  rw [hf]
  intro context hcontext hmem
  obtain ⟨p, -, rfl⟩ := List.mem_map.mp hcontext
  exact absurd (Text.mem_bytesText _ _ hmem) (by decide)

/-- A title without a match ends in the same words whatever the name is, and one with a match has no
colon behind the one that ends the name. -/
theorem titleText_inj (hf : f.Made) (hg : g.Made) (h : f.titleText = g.titleText) :
    f.name = g.name ∧ f.isHit = g.isHit ∧ (f.isHit = true → f.signature = g.signature) := by
  rw [titleText, titleText] at h
  split at h <;> split at h
  · -- The signature has no colon, so the last colon is the one behind the name.
    next hfhit hghit =>
    have hcut := (append_cons_inj_last
      (List.not_mem_cons_of_ne_of_not_mem (by decide) (hf.not_mem_signature (by decide)))
      (List.not_mem_cons_of_ne_of_not_mem (by decide) (hg.not_mem_signature (by decide)))).mp h
    exact ⟨String.toList_inj.mp (List.append_cancel_left hcut.1), hfhit.trans hghit.symm,
      fun _ => String.toList_inj.mp (List.cons.inj hcut.2).2⟩
  · cases h
  · cases h
  · -- What is left without the common ends are the names, whatever colons they have.
    next hfhit hghit =>
    have hname := List.append_cancel_left (List.append_cancel_right h)
    exact ⟨String.toList_inj.mp hname,
      (Bool.eq_false_iff.mpr hfhit).trans (Bool.eq_false_iff.mpr hghit).symm,
      fun hhit => absurd hhit hfhit⟩

theorem hitLine_injective : Function.Injective hitLine := by
  intro hit hit' h
  rw [hitLine, hitLine, List.append_assoc, List.append_assoc, List.append_cancel_left_eq,
    append_cons_inj_first (not_mem_positionText (by decide)) (not_mem_positionText (by decide))] at h
  exact Prod.ext (positionText_inj (String.toList_inj.mp h.1))
    (String.toList_inj.mp (List.cons.inj h.2).2)

/-- There are as many positions as there are bytes shown, so none is lost. -/
theorem hits_inj (hf : f.Made) (hg : g.Made) (h : f.hits = g.hits) :
    f.positions = g.positions ∧ f.contexts = g.contexts := by
  have hunzip := congrArg List.unzip h
  rw [hits, hits, List.unzip_zip hf.length_contexts.symm, List.unzip_zip hg.length_contexts.symm]
    at hunzip
  exact Prod.ext_iff.mp hunzip

theorem isHit_iff : f.isHit = true ↔ f.positions ≠ [] := by
  rw [isHit, Bool.not_eq_true', List.isEmpty_eq_false_iff]

theorem positions_eq_nil (h : ¬ f.isHit = true) : f.positions = [] :=
  not_not.mp (mt isHit_iff.mpr h)

/-- Findings with the same lines are shown alike. -/
theorem shownAlike_of_lineTexts (hf : f.Made) (hg : g.Made) (h : f.lineTexts = g.lineTexts) :
    f.ShownAlike g := by
  rw [lineTexts, lineTexts, List.cons.injEq, List.map_inj_right hitLine_injective] at h
  obtain ⟨htitle, hhits⟩ := h
  obtain ⟨hname, hishit, hsignature⟩ := titleText_inj hf hg htitle
  obtain ⟨hpositions, hcontexts⟩ := hits_inj hf hg hhits
  exact ⟨hname, hishit, fun hhit => ⟨hsignature hhit, hpositions, hcontexts⟩⟩

theorem ShownAlike.positions_eq (h : f.ShownAlike g) : f.positions = g.positions := by
  by_cases hhit : f.isHit = true
  · exact (h.hit hhit).2.1
  · rw [positions_eq_nil hhit, positions_eq_nil (h.isHit ▸ hhit)]

/-- The lines of a finding hold nothing but what is shown of it. -/
theorem ShownAlike.lineTexts_eq (h : f.ShownAlike g) : f.lineTexts = g.lineTexts := by
  rw [lineTexts, lineTexts, titleText, titleText, hits, hits, h.positions_eq, h.name, h.isHit]
  by_cases hhit : f.isHit = true
  · obtain ⟨hsignature, -, hcontexts⟩ := h.hit hhit
    rw [hsignature, hcontexts]
  · have hghit : ¬ g.isHit = true := h.isHit ▸ hhit
    rw [if_neg hghit, if_neg hghit, positions_eq_nil hghit, List.zip_nil_left, List.zip_nil_left]

/-- A title is told from the lines of positions by its first character, and from the first and the
last line of a report by its second one. -/
theorem title_marks (f : Finding) : f.titleText.head? = some '[' ∧ f.titleText[1]? ≠ some '*' := by
  rw [titleText]
  split <;> exact ⟨rfl, by simp⟩

theorem Made.feed_not_mem_lineTexts (hf : f.Made) (hname : '\n' ∉ f.name.toList) :
    ∀ cs ∈ f.lineTexts, '\n' ∉ cs := by
  rw [lineTexts, List.forall_mem_cons, List.forall_mem_map]
  constructor
  · have hsignature := hf.not_mem_signature (c := '\n') (by decide)
    rw [titleText]
    split <;> simp [hname, hsignature]
  · intro hit hhit
    have hposition : '\n' ∉ (positionText hit.1).toList := not_mem_positionText (by decide)
    have hcontext := hf.feed_not_mem_context hit.2 (List.of_mem_zip hhit).2
    simp [hitLine, hposition, hcontext]

end Made

theorem toList_hitText (p : Int64) (context : String) :
    (hitText false p context).toList = hitLine (p, context) ++ ['\n'] := by
  simp [hitText, hitLine, Style.paint]

theorem toList_text (f : Finding) :
    (f.text false).toList = f.lineTexts.flatMap fun cs => cs ++ ['\n'] := by
  rw [text, lineTexts, List.flatMap_cons, titleText]
  split
  · have hhits : (String.join (List.zipWith (hitText false) f.positions f.contexts)).toList =
        (f.hits.map hitLine).flatMap fun cs => cs ++ ['\n'] := by
      rw [String.toList_join, ← List.map_uncurry_zip_eq_zipWith, List.flatMap_map, List.flatMap_map]
      exact List.flatMap_congr fun hit _ => toList_hitText hit.1 hit.2
    simp [hhits, Style.paint]
  · next hhit =>
    rw [hits, positions_eq_nil hhit]
    simp [Style.paint]

end Finding

/-! ## 4. The lines of a report -/

namespace Report

theorem toList_headText (r : Report) : (r.headText false).toList = r.headLine ++ ['\n'] := by
  unfold headText headLine
  simp [Style.paint, toString]

theorem toList_sumText (r : Report) : (r.sumText false).toList = r.sumLine ++ ['\n'] := by
  unfold sumText sumLine
  simp [Style.paint, toString]

theorem toList_text (r : Report) :
    (r.text false).toList = r.lineTexts.flatMap fun cs => cs ++ ['\n'] := by
  have hfindings : (String.join (r.findings.map (Finding.text false))).toList =
      (r.findings.flatMap Finding.lineTexts).flatMap fun cs => cs ++ ['\n'] := by
    rw [String.toList_join, List.flatMap_map, List.flatMap_assoc]
    exact List.flatMap_congr fun f _ => f.toList_text
  rw [text, lineTexts, String.toList_append, String.toList_append, hfindings, toList_headText,
    toList_sumText, List.flatMap_cons, List.flatMap_append, List.flatMap_singleton,
    List.append_assoc]

section Alike

variable {r r' : Report}

theorem headLine_inj (h : r.headLine = r'.headLine) :
    r.source = r'.source ∧ Size.text r.regionSize = Size.text r'.regionSize := by
  have hsize (n : Nat) : '(' ∉ (Size.text n).toList ++ [')'] := by
    rw [List.mem_append, not_or]
    exact ⟨Size.not_mem_text n (by decide), by decide⟩
  rw [headLine, headLine, append_cons_inj_last (hsize _) (hsize _), List.append_cancel_right_eq,
    List.append_cancel_left_eq, List.append_cancel_right_eq, String.toList_inj,
    String.toList_inj] at h
  exact h

theorem sum_marks (r : Report) : r.sumLine.head? = some '[' ∧ r.sumLine[1]? = some '*' := by
  simp [sumLine]

/-- What follows the lines of positions is no such line. -/
theorem head?_behind_hits (r : Report) (fs : List Finding) :
    ∀ cs ∈ (fs.flatMap Finding.lineTexts ++ [r.sumLine]).head?, cs.head? = some '[' := by
  cases fs with
  | nil => exact fun cs hcs => Option.some.inj hcs ▸ r.sum_marks.1
  | cons f fs => exact fun cs hcs => Option.some.inj hcs ▸ f.title_marks.1

/-- The lines of findings are told apart, by induction on the findings: each title ends the lines of
the finding before it, and the last line ends them all. -/
theorem shownAlike_of_flatMap {fs gs : List Finding} (hfs : ∀ f ∈ fs, f.Made)
    (hgs : ∀ g ∈ gs, g.Made) (h : fs.flatMap Finding.lineTexts ++ [r.sumLine] =
      gs.flatMap Finding.lineTexts ++ [r'.sumLine]) :
    List.Forall₂ Finding.ShownAlike fs gs := by
  induction fs generalizing gs with
  | nil =>
    cases gs with
    | nil => exact .nil
    | cons g gs =>
      -- A name is free, but what stands in front of it in a title is not.
      have hsum : r.sumLine = g.titleText := (List.cons.inj h).1
      exact absurd (hsum ▸ r.sum_marks.2) g.title_marks.2
  | cons f fs ih =>
    cases gs with
    | nil =>
      have hsum : f.titleText = r'.sumLine := (List.cons.inj h).1
      exact absurd (hsum ▸ r'.sum_marks.2) f.title_marks.2
    | cons g gs =>
      obtain ⟨hf, hfs⟩ := List.forall_mem_cons.mp hfs
      obtain ⟨hg, hgs⟩ := List.forall_mem_cons.mp hgs
      -- Lines of positions begin with a blank, and the line behind the last of them does not.
      rw [List.flatMap_cons, List.flatMap_cons, List.append_assoc, List.append_assoc,
        Finding.lineTexts, Finding.lineTexts, List.cons_append, List.cons_append,
        List.cons.injEq] at h
      obtain ⟨hhits, hrest⟩ := append_inj_of_forall (p := fun cs => cs.head? = some ' ')
        (List.forall_mem_map.mpr fun hit _ => rfl) (List.forall_mem_map.mpr fun hit _ => rfl)
        (fun cs hcs => by rw [r.head?_behind_hits fs cs hcs]; decide)
        (fun cs hcs => by rw [r'.head?_behind_hits gs cs hcs]; decide) h.2
      refine .cons (Finding.shownAlike_of_lineTexts hf hg ?_) (ih hfs hgs hrest)
      rw [Finding.lineTexts, Finding.lineTexts, h.1, hhits]

/-- The sums are those of the findings that are shown. -/
theorem sumLine_eq (h : List.Forall₂ Finding.ShownAlike r.findings r'.findings) :
    r.sumLine = r'.sumLine := by
  have hhits := map_eq_map_of_forall₂ h Finding.ShownAlike.isHit
  have hpositions := map_eq_map_of_forall₂ h Finding.ShownAlike.positions_eq
  have hmatched : r.matchedSignatures = r'.matchedSignatures := by
    have hcount (fs : List Finding) : fs.countP Finding.isHit = (fs.map Finding.isHit).countP id := by
      rw [List.countP_map, Function.id_comp]
    rw [matchedSignatures, matchedSignatures, hcount, hcount, hhits]
  have htotal : r.totalHits = r'.totalHits := by
    have hsum (fs : List Finding) : fs.foldr (fun f hits => f.positions.length + hits) 0 =
        (fs.map Finding.positions).foldr (fun positions hits => positions.length + hits) 0 := by
      rw [List.foldr_map]
    rw [totalHits, totalHits, hsum, hsum, hpositions]
  rw [sumLine, sumLine, hmatched, htotal, h.length_eq]

theorem lineTexts_eq_iff (hr : ∀ f ∈ r.findings, f.Made) (hr' : ∀ f ∈ r'.findings, f.Made) :
    r.lineTexts = r'.lineTexts ↔ r.source = r'.source ∧
      Size.text r.regionSize = Size.text r'.regionSize ∧
      List.Forall₂ Finding.ShownAlike r.findings r'.findings := by
  rw [lineTexts, lineTexts, List.cons.injEq]
  constructor
  · rintro ⟨hhead, hlines⟩
    obtain ⟨hsource, hsize⟩ := headLine_inj hhead
    exact ⟨hsource, hsize, shownAlike_of_flatMap hr hr' hlines⟩
  · rintro ⟨hsource, hsize, halike⟩
    have hlines := map_eq_map_of_forall₂ halike Finding.ShownAlike.lineTexts_eq
    rw [headLine, headLine, hsource, hsize, sumLine_eq halike, List.flatMap_def, List.flatMap_def,
      hlines]
    exact ⟨rfl, rfl⟩

end Alike

theorem feed_not_mem_lineTexts {r : Report} (hsource : '\n' ∉ r.source.toList)
    (hfindings : ∀ f ∈ r.findings, f.Made ∧ '\n' ∉ f.name.toList) :
    ∀ cs ∈ r.lineTexts, '\n' ∉ cs := by
  have hsize : '\n' ∉ (Size.text r.regionSize).toList := Size.not_mem_text _ (by decide)
  have hnumber (n : Nat) : '\n' ∉ (toString n).toList := fun hmem =>
    absurd (Text.isDigit_of_mem_toString n _ hmem) (by decide)
  rw [lineTexts, List.forall_mem_cons, List.forall_mem_append, List.forall_mem_singleton]
  refine ⟨?_, fun cs hcs => ?_, ?_⟩
  · simp [headLine, hsource, hsize]
  · obtain ⟨f, hf, hmem⟩ := List.mem_flatMap.mp hcs
    exact (hfindings f hf).1.feed_not_mem_lineTexts (hfindings f hf).2 cs hmem
  · rw [sumLine]
    simp only [List.mem_append, not_or, hnumber, not_false_eq_true, and_true]
    decide

/-! ## 5. The text of a report -/

theorem text_eq_iff_lines {r r' : Report} (hr : ∀ cs ∈ r.lineTexts, '\n' ∉ cs)
    (hr' : ∀ cs ∈ r'.lineTexts, '\n' ∉ cs) :
    r.text false = r'.text false ↔ r.lineTexts = r'.lineTexts := by
  rw [← String.toList_inj, toList_text, toList_text]
  exact ⟨flatMap_feed_inj hr hr', congrArg _⟩

/-- The text of a report loses no hit. Two reports that are made of any findings, with no line feed in
their sources and names, have the same text exactly if their sources and their sizes, as these are
shown, are the same, and their findings are shown alike one by one: the same name, both a hit or both
none, and for a hit the same signature, positions and bytes. -/
theorem text_eq_iff {source source' : String} {fs gs : List Finding} (regionSize regionSize' : Nat)
    (hsource : '\n' ∉ source.toList) (hsource' : '\n' ∉ source'.toList)
    (hfs : ∀ f ∈ fs, f.Made ∧ '\n' ∉ f.name.toList)
    (hgs : ∀ g ∈ gs, g.Made ∧ '\n' ∉ g.name.toList) :
    let r := fs.foldl push { source, regionSize }
    let r' := gs.foldl push { source := source', regionSize := regionSize' }
    r.text false = r'.text false ↔
      r.source = r'.source ∧ Size.text r.regionSize = Size.text r'.regionSize ∧
        List.Forall₂ Finding.ShownAlike r.findings r'.findings := by
  intro r r'
  have hr : r = _ := foldl_push _ fs
  have hr' : r' = _ := foldl_push _ gs
  have hfindings : ∀ f ∈ r.findings, f.Made ∧ '\n' ∉ f.name.toList := by rwa [hr]
  have hfindings' : ∀ g ∈ r'.findings, g.Made ∧ '\n' ∉ g.name.toList := by rwa [hr']
  rw [text_eq_iff_lines (feed_not_mem_lineTexts (by rwa [hr]) hfindings)
      (feed_not_mem_lineTexts (by rwa [hr']) hfindings'),
    lineTexts_eq_iff (fun f hf => (hfindings f hf).1) (fun g hg => (hfindings' g hg).1)]

/-- A name may read like another line, and a position below zero is told from its magnitude. Regions
of 4096 and 4097 bytes are shown alike. -/
theorem text_eq_iff_imitating_name :
    let finding (name : String) (positions : List Int64) : Finding :=
      .ofPositions name ⟨[.exact 0x90], 0, rfl⟩ positions [0x90]
    let fs := [finding "[-] upx: no match" [], finding "upx: 90" [Int64.minValue, 1]]
    let gs := [finding "[-] upx: no match" [], finding "upx: 90" [Int64.minValue, -1]]
    let report (regionSize : Nat) (fs : List Finding) : Report :=
      fs.foldl push { source := "[*] 0 of 0", regionSize }
    '\n' ∉ "[*] 0 of 0".toList ∧ (∀ f ∈ fs, f.Made ∧ '\n' ∉ f.name.toList) ∧
      (∀ g ∈ gs, g.Made ∧ '\n' ∉ g.name.toList) ∧
      (report 4096 fs).text false = (report 4097 fs).text false ∧
      (report 4096 fs).text false ≠ (report 4096 gs).text false := by
  intro finding fs gs report
  have hsource : '\n' ∉ "[*] 0 of 0".toList := by decide
  have hmade (name : String) (positions : List Int64) : (finding name positions).Made :=
    ⟨_, positions, _, rfl⟩
  have hfs : ∀ f ∈ fs, f.Made ∧ '\n' ∉ f.name.toList := by
    rw [List.forall_mem_cons, List.forall_mem_singleton]
    exact ⟨⟨hmade .., by decide⟩, ⟨hmade .., by decide⟩⟩
  have hgs : ∀ g ∈ gs, g.Made ∧ '\n' ∉ g.name.toList := by
    rw [List.forall_mem_cons, List.forall_mem_singleton]
    exact ⟨⟨hmade .., by decide⟩, ⟨hmade .., by decide⟩⟩
  refine ⟨hsource, hfs, hgs, ?_, fun htext => ?_⟩
  · exact (text_eq_iff 4096 4097 hsource hsource hfs hfs).mpr
      ⟨rfl, by decide, List.forall₂_same.mpr fun f _ => ⟨rfl, rfl, fun _ => ⟨rfl, rfl, rfl⟩⟩⟩
  · obtain ⟨-, -, halike⟩ := (text_eq_iff 4096 4096 hsource hsource hfs hgs).mp htext
    have hupx : (finding "upx: 90" [Int64.minValue, 1]).ShownAlike
        (finding "upx: 90" [Int64.minValue, -1]) :=
      (List.forall₂_cons.mp (List.forall₂_cons.mp halike).2).1
    exact absurd (hupx.hit rfl).2.1 (by decide)

end Report

end ByteScan
