import ByteScan.Proofs.Json.Grammar

/-!
# What is left of a document without its blanks

A blank in a string is a part of the string. All other blanks in a document can be taken out, and what
is left of both layouts of a value is the same: the tokens of the value, one right behind the other.

* `Place`, `Place.after`: whether a character stands in a string.
* `squeeze`: a document without the blanks that stand in no string.

Results:
1. `squeeze_escape`, `squeeze_stringText`: strings stay as they are.
2. `squeeze_token`: so do all other tokens.
3. `squeeze_pretty`, `squeeze_compact`: the layouts of a value.
-/

namespace ByteScan.Json

/-! ## Definitions -/

/-- Where in a document a character stands. -/
inductive Place where
  /-- In no string. -/
  | outside
  /-- In a string. -/
  | inside
  /-- In a string and right behind a backslash, so that it does not end the string. -/
  | escaped
  deriving DecidableEq, Repr

/-- Where the character behind `c` stands. -/
def Place.after : Place → Char → Place
  | outside, c => if c = '"' then inside else outside
  | inside, c => if c = '"' then outside else if c = '\\' then escaped else inside
  | escaped, _ => inside

/-- The characters without the blanks that stand in no string. The first of them stands at `place`. -/
def squeeze (place : Place) : List Char → List Char
  | [] => []
  | c :: cs =>
    if place = .outside ∧ isSpace c = true then squeeze place cs
    else c :: squeeze (place.after c) cs

/-! ## 1. Strings -/

section Strings

variable (rest : List Char)

theorem squeeze_inside_append {cs : List Char} (h : ∀ c ∈ cs, c ≠ '"' ∧ c ≠ '\\') :
    squeeze .inside (cs ++ rest) = cs ++ squeeze .inside rest := by
  induction cs with
  | nil => rfl
  | cons c cs ih =>
    obtain ⟨⟨hquote, hbackslash⟩, hcs⟩ := List.forall_mem_cons.mp h
    rw [List.cons_append, squeeze, if_neg (fun h => nomatch h.1), Place.after, if_neg hquote,
      if_neg hbackslash, ih hcs, List.cons_append]

/-- A backslash takes the character behind it along, whatever it is. -/
theorem squeeze_backslash (letter : Char) :
    squeeze .inside ('\\' :: letter :: rest) = '\\' :: letter :: squeeze .inside rest :=
  rfl

theorem digitChar_ne_mark {n : Nat} (h : n < 16) :
    n.digitChar ≠ '"' ∧ n.digitChar ≠ '\\' := by
  have hall : ∀ n : Fin 16, n.val.digitChar ≠ '"' ∧ n.val.digitChar ≠ '\\' := by decide
  exact hall ⟨n, h⟩

/-- A character as it is written in a string stays as it is, and the string goes on behind it. -/
theorem squeeze_escape (c : Char) :
    squeeze .inside (escape c ++ rest) = escape c ++ squeeze .inside rest := by
  unfold escape
  split_ifs with hquote hbackslash _ _ _ _ _ hcontrol
  · exact squeeze_backslash rest _
  · exact squeeze_backslash rest _
  · exact squeeze_backslash rest _
  · exact squeeze_backslash rest _
  · exact squeeze_backslash rest _
  · exact squeeze_backslash rest _
  · exact squeeze_backslash rest _
  · have hdigits : ∀ d ∈ ['0', '0', (c.toNat / 16).digitChar, (c.toNat % 16).digitChar],
        d ≠ '"' ∧ d ≠ '\\' := by
      have hzero : '0' ≠ '"' ∧ '0' ≠ '\\' := by decide
      simp only [List.forall_mem_cons]
      exact ⟨hzero, hzero, digitChar_ne_mark (by omega), digitChar_ne_mark (by omega),
        List.forall_mem_nil _⟩
    exact congrArg (fun cs => '\\' :: 'u' :: cs) (squeeze_inside_append rest hdigits)
  · exact squeeze_inside_append rest (List.forall_mem_singleton.mpr ⟨hquote, hbackslash⟩)

theorem squeeze_flatMap_escape (text : List Char) :
    squeeze .inside (text.flatMap escape ++ rest) = text.flatMap escape ++ squeeze .inside rest := by
  induction text with
  | nil => rfl
  | cons c text ih =>
    rw [List.flatMap_cons, List.append_assoc, squeeze_escape, ih, List.append_assoc]

theorem squeeze_stringText (text : Option String) :
    squeeze .outside ((stringText text).toList ++ rest) =
      (stringText text).toList ++ squeeze .outside rest := by
  cases text with
  | none => rfl
  | some text =>
    have htext : (stringText (some text)).toList = '"' :: (text.toList.flatMap escape ++ ['"']) := by
      simp [stringText, quote]
    have hinside := squeeze_flatMap_escape ('"' :: rest) text.toList
    rw [htext, List.cons_append, List.cons_append, List.append_assoc, List.append_assoc]
    exact congrArg (List.cons '"') hinside

end Strings

/-! ## 2. Tokens -/

section Tokens

variable (rest : List Char)

theorem squeeze_outside_append {cs : List Char} (h : ∀ c ∈ cs, c ≠ '"' ∧ isSpace c = false) :
    squeeze .outside (cs ++ rest) = cs ++ squeeze .outside rest := by
  induction cs with
  | nil => rfl
  | cons c cs ih =>
    obtain ⟨⟨hquote, hspace⟩, hcs⟩ := List.forall_mem_cons.mp h
    rw [List.cons_append, squeeze, if_neg (fun h => by simp [hspace] at h), Place.after,
      if_neg hquote, ih hcs, List.cons_append]

theorem squeeze_blanks {gap : List Char} (h : ∀ c ∈ gap, isSpace c = true) :
    squeeze .outside (gap ++ rest) = squeeze .outside rest := by
  induction gap with
  | nil => rfl
  | cons c gap ih =>
    obtain ⟨hc, hgap⟩ := List.forall_mem_cons.mp h
    rw [List.cons_append, squeeze, if_pos ⟨rfl, hc⟩, ih hgap]

theorem isDigit_plain {c : Char} (h : c.isDigit = true) : c ≠ '"' ∧ isSpace c = false := by
  refine ⟨?_, Bool.eq_false_iff.mpr fun hspace => ?_⟩
  · rintro rfl
    cases h
  · simp only [isSpace, Bool.or_eq_true, beq_iff_eq] at hspace
    rcases hspace with ((rfl | rfl) | rfl) | rfl <;> cases h

theorem toDigits_plain (n : Nat) : ∀ c ∈ Nat.toDigits 10 n, c ≠ '"' ∧ isSpace c = false :=
  fun _ hc => isDigit_plain (Nat.isDigit_of_mem_toDigits (by decide) (by decide) hc)

theorem squeeze_integer (n : Int) : squeeze .outside ((toString n).toList ++ rest) =
    (toString n).toList ++ squeeze .outside rest := by
  cases n with
  | ofNat n =>
    rw [Text.toList_toString_ofNat]
    exact squeeze_outside_append rest (toDigits_plain n)
  | negSucc n =>
    rw [Text.toList_toString_negSucc]
    exact squeeze_outside_append rest
      (List.forall_mem_cons.mpr ⟨by decide, toDigits_plain (n + 1)⟩)

/-- A token stays as it is, and what comes behind it stands in no string. -/
theorem squeeze_token (t : Token) :
    squeeze .outside (t.text.toList ++ rest) = t.text.toList ++ squeeze .outside rest := by
  cases t with
  | atom a =>
    cases a with
    | null => rfl
    | bool b => cases b <;> rfl
    | integer n => exact squeeze_integer rest n
    | inexact => rfl
    | string text => exact squeeze_stringText rest text
  | _ => rfl

end Tokens

/-! ## 3. Layouts -/

/-- The tokens as they are written, one right behind the other. -/
def written (ts : List Token) : List Char :=
  ts.flatMap fun t => t.text.toList

/-- The characters come to `left` without their blanks, and what is behind them stands in no
string. -/
def Squeezed (cs left : List Char) : Prop :=
  ∀ rest, squeeze .outside (cs ++ rest) = left ++ squeeze .outside rest

section Layouts

variable {cs ds left more : List Char}

theorem Squeezed.append (h : Squeezed cs left) (h' : Squeezed ds more) :
    Squeezed (cs ++ ds) (left ++ more) := by
  intro rest
  rw [List.append_assoc, h, h', List.append_assoc]

theorem Squeezed.indent {gap : List Char} (hgap : ∀ c ∈ gap, isSpace c = true)
    (h : Squeezed cs left) : Squeezed (gap ++ cs) left := by
  intro rest
  rw [List.append_assoc, squeeze_blanks _ hgap, h]

theorem Squeezed.eq (h : Squeezed cs left) : squeeze .outside cs = left := by
  have hend := h []
  rwa [List.append_nil, squeeze, List.append_nil] at hend

theorem squeezed_token (t : Token) : Squeezed t.text.toList t.text.toList :=
  fun rest => squeeze_token rest t

theorem squeezed_written (ts : List Token) : Squeezed (written ts) (written ts) := by
  induction ts with
  | nil => exact fun _ => rfl
  | cons t ts ih => exact (squeezed_token t).append ih

theorem toList_compact (v : Json) : v.compact.toList = written v.tokens := by
  rw [compact]
  induction v.tokens with
  | nil => rfl
  | cons t ts ih => rw [List.map_cons, String.join_cons, String.toList_append, ih]; rfl

mutual

theorem squeezed_prettyAt (depth : Nat) :
    (v : Json) → Squeezed (v.prettyAt depth).toList (written v.tokens)
  | .atom a => by
    have h := squeezed_token (.atom a)
    simpa [tokens, prettyAt, written, Token.text, Atom.text] using h
  | .array [] => by
    have h := (squeezed_token .openArray).append (squeezed_token .closeArray)
    simpa [tokens, prettyAt, written, Token.text, Atom.text] using h
  | .array (v :: vs) => by
    have hv := (squeezed_prettyAt (depth + 1) v).indent (isSpace_of_mem_newLine (depth + 1))
    have h := (squeezed_token .openArray).append (hv.append (squeezed_prettyItems depth vs))
    simpa [tokens, prettyAt, written, Token.text, Atom.text] using h
  | .object [] => by
    have h := (squeezed_token .openObject).append (squeezed_token .closeObject)
    simpa [tokens, prettyAt, written, Token.text, Atom.text] using h
  | .object ((name, v) :: ms) => by
    have hname := (squeezed_token (.atom (.string name))).indent
      (isSpace_of_mem_newLine (depth + 1))
    have hv := (squeezed_prettyAt (depth + 1) v).indent isSpace_of_mem_space
    have h := (squeezed_token .openObject).append (hname.append ((squeezed_token .colon).append
      (hv.append (squeezed_prettyMembers depth ms))))
    simpa [tokens, prettyAt, written, Token.text, Atom.text] using h

theorem squeezed_prettyItems (depth : Nat) :
    (vs : List Json) → Squeezed (prettyItems depth vs).toList (written (moreItems vs))
  | [] => by
    have h := (squeezed_token .closeArray).indent (isSpace_of_mem_newLine depth)
    simpa [moreItems, prettyItems, written, Token.text, Atom.text] using h
  | v :: vs => by
    have hv := (squeezed_prettyAt (depth + 1) v).indent (isSpace_of_mem_newLine (depth + 1))
    have h := (squeezed_token .comma).append (hv.append (squeezed_prettyItems depth vs))
    simpa [moreItems, prettyItems, written, Token.text, Atom.text] using h

theorem squeezed_prettyMembers (depth : Nat) : (ms : List (Option String × Json)) →
    Squeezed (prettyMembers depth ms).toList (written (moreMembers ms))
  | [] => by
    have h := (squeezed_token .closeObject).indent (isSpace_of_mem_newLine depth)
    simpa [moreMembers, prettyMembers, written, Token.text, Atom.text] using h
  | (name, v) :: ms => by
    have hname := (squeezed_token (.atom (.string name))).indent
      (isSpace_of_mem_newLine (depth + 1))
    have hv := (squeezed_prettyAt (depth + 1) v).indent isSpace_of_mem_space
    have h := (squeezed_token .comma).append (hname.append ((squeezed_token .colon).append
      (hv.append (squeezed_prettyMembers depth ms))))
    simpa [moreMembers, prettyMembers, written, Token.text, Atom.text] using h

end

/-- The layout over several lines is the layout without blanks, but for blanks in no string. -/
theorem squeeze_pretty (v : Json) : squeeze .outside v.pretty.toList = v.compact.toList := by
  rw [toList_compact]
  exact (squeezed_prettyAt 0 v).eq

/-- The layout without blanks has none, but for those in its strings. -/
theorem squeeze_compact (v : Json) : squeeze .outside v.compact.toList = v.compact.toList := by
  rw [toList_compact]
  exact (squeezed_written v.tokens).eq

end Layouts

end ByteScan.Json
