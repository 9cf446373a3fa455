import ByteScan.Proofs.Text.Trim
import ByteScan.Text.Lines
import Mathlib.Data.List.Basic

/-!
# Lines of joined texts

A text that ends with a line feed keeps its lines when more text follows, and what follows keeps its
own. So lines that are joined by line ends are found again. A carriage return at the end of a line
cannot be told from a part of its line end, but it is blank and goes when the line is trimmed.

Results:
1. `lines_append_feed`, `lines_append`: lines before and behind a line feed.
2. `feed_not_mem_of_mem_lines`: a line has no line feed in it.
3. `map_trim_lines_joinLines`: lines that are joined.
-/

namespace ByteScan.Text

/-! ## 1. Texts one after another -/

theorem lines_append_feed (cs more : List Char) :
    lines (cs ++ '\n' :: more) = (cs.splitOn '\n').map dropCarriageReturn ++ lines more := by
  have hne : more.splitOn '\n' ≠ [] := List.splitOn_ne_nil '\n' more
  rw [lines, lines, List.splitOn_append_cons_self, List.dropLast_append_of_ne_nil hne,
    List.getLast?_append_of_ne_nil _ hne, List.map_append]
  split
  · rfl
  · rfl
  · rw [List.append_assoc]

/-- Joining texts joins their lines, if the first of them ends where a line ends. -/
theorem lines_append {cs : List Char} (h : cs = [] ∨ cs.getLast? = some '\n') (more : List Char) :
    lines (cs ++ more) = lines cs ++ lines more := by
  cases h with
  | inl hnil =>
    subst hnil
    rfl
  | inr hfeed =>
    obtain ⟨front, rfl⟩ := List.getLast?_eq_some_iff.mp hfeed
    rw [List.append_assoc, List.singleton_append, lines_append_feed, lines_append_feed front [],
      List.append_assoc]
    rfl

/-! ## 2. What is in a line -/

section InLine

variable {cs : List Char}

theorem feed_not_mem_of_mem_splitOn {piece : List Char} (h : piece ∈ cs.splitOn '\n') :
    '\n' ∉ piece := by
  induction cs generalizing piece with
  | nil =>
    rw [List.splitOn_nil, List.mem_singleton] at h
    subst h
    exact List.not_mem_nil
  | cons c cs ih =>
    rw [List.splitOn_cons_eq_if_modifyHead] at h
    split at h
    · rcases List.mem_cons.mp h with rfl | hmore
      · exact List.not_mem_nil
      · exact ih hmore
    · next hc =>
      obtain ⟨first, more, hpieces⟩ := List.exists_cons_of_ne_nil (List.splitOn_ne_nil '\n' cs)
      rw [hpieces, List.modifyHead_cons] at h
      rcases List.mem_cons.mp h with rfl | hmore
      · have hfirst : '\n' ∉ first := ih (by rw [hpieces]; exact List.mem_cons_self)
        rintro (_ | ⟨_, hmem⟩)
        · exact hc (by simp)
        · exact hfirst hmem
      · exact ih (by rw [hpieces]; exact List.mem_cons_of_mem first hmore)

theorem feed_not_mem_of_mem_lines {line : List Char} (h : line ∈ lines cs) : '\n' ∉ line := by
  have hclosed : ∀ line ∈ (cs.splitOn '\n').dropLast.map dropCarriageReturn, '\n' ∉ line := by
    intro line hline
    obtain ⟨piece, hpiece, rfl⟩ := List.mem_map.mp hline
    have hnot := feed_not_mem_of_mem_splitOn (List.dropLast_subset _ hpiece)
    rw [dropCarriageReturn]
    split
    · exact fun hmem => hnot (List.dropLast_subset _ hmem)
    · exact hnot
  simp only [lines] at h
  split at h
  · exact hclosed line h
  · exact hclosed line h
  · next last hlast =>
    rcases List.mem_append.mp h with hline | hline
    · exact hclosed line hline
    · rw [List.mem_singleton.mp hline]
      exact feed_not_mem_of_mem_splitOn (List.mem_of_getLast? hlast)

end InLine

/-! ## 3. Joined lines -/

/-- What ends a line. -/
inductive LineEnd where
  | feed
  | returnAndFeed
  deriving DecidableEq, Repr

/-- The characters of a line end. -/
def LineEnd.chars : LineEnd → List Char
  | .feed => ['\n']
  | .returnAndFeed => ['\r', '\n']

/-- The text of some lines. The line at index `i` ends with `ends i`, but the last one only if the text
is closed. -/
def joinLines (closed : Bool) (ends : Nat → LineEnd) : List (List Char) → List Char
  | [] => []
  | [last] => last ++ if closed then (ends 0).chars else []
  | cs :: next :: more =>
    cs ++ (ends 0).chars ++ joinLines closed (fun i => ends (i + 1)) (next :: more)

section Joined

variable {cs : List Char}

theorem trim_dropCarriageReturn (cs : List Char) : trim (dropCarriageReturn cs) = trim cs := by
  rw [dropCarriageReturn]
  split
  · next hlast =>
    obtain ⟨front, rfl⟩ := List.getLast?_eq_some_iff.mp hlast
    rw [List.dropLast_concat, trim_append_right (List.forall_mem_singleton.mpr rfl)]
  · rfl

theorem map_trim_lines_append (h : '\n' ∉ cs) (lineEnd : LineEnd) (more : List Char) :
    (lines (cs ++ lineEnd.chars ++ more)).map trim = trim cs :: (lines more).map trim := by
  cases lineEnd with
  | feed =>
    rw [LineEnd.chars, List.append_assoc, List.singleton_append, lines_append_feed,
      List.splitOn_eq_singleton h, List.map_append, List.map_singleton, List.map_singleton,
      trim_dropCarriageReturn, List.singleton_append]
  | returnAndFeed =>
    have hreturn : '\n' ∉ cs ++ ['\r'] := by simpa using h
    have hsplit : cs ++ ['\r', '\n'] ++ more = (cs ++ ['\r']) ++ '\n' :: more := by simp
    rw [LineEnd.chars, hsplit, lines_append_feed, List.splitOn_eq_singleton hreturn,
      List.map_append, List.map_singleton, List.map_singleton, trim_dropCarriageReturn,
      trim_append_right (List.forall_mem_singleton.mpr rfl), List.singleton_append]

theorem lines_of_not_mem (h : '\n' ∉ cs) (hne : cs ≠ []) : lines cs = [cs] := by
  rw [lines, List.splitOn_eq_singleton h]
  cases cs with
  | nil => exact absurd rfl hne
  | cons c rest => rfl

/-- The lines of joined lines are those lines, but for blanks at their ends. A last line without
anything in it is a line only if it has an end. -/
theorem map_trim_lines_joinLines {ls : List (List Char)} {closed : Bool}
    (hfeed : ∀ cs ∈ ls, '\n' ∉ cs) (hlast : closed = true ∨ ls.getLast? ≠ some [])
    (ends : Nat → LineEnd) : (lines (joinLines closed ends ls)).map trim = ls.map trim := by
  induction ls generalizing ends with
  | nil => rfl
  | cons cs more ih =>
    obtain ⟨hcs, hmore⟩ := List.forall_mem_cons.mp hfeed
    cases more with
    | nil =>
      cases closed with
      | true =>
        rw [joinLines, if_pos rfl, ← List.append_nil (cs ++ _), map_trim_lines_append hcs]
        rfl
      | false =>
        have hne : cs ≠ [] := by simpa using hlast
        rw [joinLines, if_neg Bool.false_ne_true, List.append_nil, lines_of_not_mem hcs hne]
    | cons next more =>
      have hlast' : closed = true ∨ (next :: more).getLast? ≠ some [] := by
        rwa [List.getLast?_cons_cons] at hlast
      rw [joinLines, map_trim_lines_append hcs, ih hmore hlast']
      rfl

end Joined

end ByteScan.Text
