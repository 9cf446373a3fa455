import ByteScan.Proofs.Json.Grammar
import Mathlib.Data.List.Chain

/-!
# Documents are cut into the tokens that they spell

A token is read in whichever of its spellings it stands, and the blanks around it are passed. A number
ends where something comes that cannot belong to it, so tokens have to be such that no two values
stand side by side.

* `Closes`: what may come behind a number.
* `Token.isMark`, `Separated`: tokens of which no two neighbours are values.

Results:
1. `magnitude?_append`, `number?_of_digit`: numbers.
2. `pieces?_append`: strings.
3. `token?_append`: a token.
4. `scan_of_laid`: tokens with blanks around them.
-/

namespace ByteScan.Json

/-! ## Definitions -/

/-- What may come behind a number: nothing, or a character that cannot belong to it. -/
def Closes (rest : List Char) : Prop :=
  ∀ c ∈ rest.head?, c.isDigit = false ∧ c ≠ '.' ∧ c ≠ 'e' ∧ c ≠ 'E'

/-- Whether a token is no value: a bracket, a brace, a comma or a colon. -/
def Token.isMark : Token → Bool
  | .atom _ => false
  | _ => true

/-- No two values stand side by side. -/
def Separated (ts : List Token) : Prop :=
  ts.IsChain fun t t' => t.isMark = true ∨ t'.isMark = true

/-! ## 1. Numbers -/

section Numbers

variable {cs rest : List Char}

theorem digits?_append (h : IsDigits cs) (hrest : ∀ c ∈ rest.head?, c.isDigit = false) :
    digits? (cs ++ rest) = some (cs, rest) := by
  obtain ⟨hne, hdigits⟩ := h
  have hstop : rest.takeWhile Char.isDigit = [] ∧ rest.dropWhile Char.isDigit = rest := by
    cases rest with
    | nil => exact ⟨rfl, rfl⟩
    | cons c rest =>
      have hc : c.isDigit = false := hrest c rfl
      simp [hc]
  have htake : (cs ++ rest).takeWhile Char.isDigit = cs := by
    rw [List.takeWhile_append_of_pos hdigits, hstop.1, List.append_nil]
  have hdrop : (cs ++ rest).dropWhile Char.isDigit = rest := by
    rw [List.dropWhile_append_of_pos hdigits, hstop.2]
  unfold digits?
  rw [htake, hdrop]
  cases cs with
  | nil => exact absurd rfl hne
  | cons c cs => rfl

theorem whole?_append (h : IsWhole cs) (hrest : ∀ c ∈ rest.head?, c.isDigit = false) :
    whole? (cs ++ rest) = some (Text.decimal cs, rest) := by
  obtain ⟨hdigits, hzero⟩ := h
  unfold whole?
  split
  · next rest' heq =>
    cases cs with
    | nil => exact absurd rfl hdigits.1
    | cons c cs =>
      obtain ⟨rfl, rfl⟩ := List.cons.inj heq
      obtain rfl : cs = [] := (List.cons.inj (hzero rfl)).2
      rfl
  · rw [digits?_append hdigits hrest]
    rfl

/-- A fraction and an exponent begin with what cannot belong to the digits in front of them. -/
theorem isDigit_head?_fraction {fraction : List Char} (h : IsFraction fraction)
    (hrest : ∀ c ∈ rest.head?, c.isDigit = false) :
    ∀ c ∈ (fraction ++ rest).head?, c.isDigit = false := by
  cases h with
  | absent => exact hrest
  | present _ =>
    rintro c ⟨⟩
    rfl

theorem head?_exponent {exponent : List Char} (h : IsExponent exponent) (hrest : Closes rest) :
    ∀ c ∈ (exponent ++ rest).head?, c.isDigit = false ∧ c ≠ '.' := by
  cases h with
  | absent => exact fun c hc => ⟨(hrest c hc).1, (hrest c hc).2.1⟩
  | present hmark _ _ =>
    rintro c ⟨⟩
    simp only [List.mem_cons, List.not_mem_nil, or_false] at hmark
    rcases hmark with rfl | rfl <;> decide

theorem fraction?_append {fraction : List Char} (h : IsFraction fraction)
    (hrest : ∀ c ∈ rest.head?, c.isDigit = false ∧ c ≠ '.') :
    fraction? (fraction ++ rest) = some (!fraction.isEmpty, rest) := by
  cases h with
  | absent =>
    show fraction? rest = some (false, rest)
    unfold fraction?
    split
    · exact absurd rfl (hrest '.' rfl).2
    · rfl
  | @present cs hdigits =>
    show (digits? (cs ++ rest)).map _ = _
    rw [digits?_append hdigits fun c hc => (hrest c hc).1]
    rfl

theorem unsigned_append {sign : List Char} (hsign : sign ∈ [[], ['+'], ['-']]) (h : IsDigits cs) :
    unsigned (sign ++ (cs ++ rest)) = cs ++ rest := by
  simp only [List.mem_cons, List.not_mem_nil, or_false] at hsign
  rcases hsign with rfl | rfl | rfl
  · obtain ⟨hne, hdigits⟩ := h
    cases cs with
    | nil => exact absurd rfl hne
    | cons c cs =>
      have hc : c.isDigit = true := hdigits c List.mem_cons_self
      show unsigned (c :: (cs ++ rest)) = _
      unfold unsigned
      split
      · next heq =>
        obtain ⟨rfl, -⟩ := List.cons.inj heq
        exact absurd hc (by decide)
      · next heq =>
        obtain ⟨rfl, -⟩ := List.cons.inj heq
        exact absurd hc (by decide)
      · rfl
  · rfl
  · rfl

theorem exponent?_append {exponent : List Char} (h : IsExponent exponent) (hrest : Closes rest) :
    exponent? (exponent ++ rest) = some (!exponent.isEmpty, rest) := by
  cases h with
  | absent =>
    show exponent? rest = some (false, rest)
    unfold exponent?
    split
    · exact absurd rfl (hrest 'e' rfl).2.2.1
    · exact absurd rfl (hrest 'E' rfl).2.2.2
    · rfl
  | @present mark sign cs hmark hsign hdigits =>
    have hread : (digits? (unsigned ((sign ++ cs) ++ rest))).map (fun read => (true, read.2)) =
        some (true, rest) := by
      rw [List.append_assoc, unsigned_append hsign hdigits,
        digits?_append hdigits fun c hc => (hrest c hc).1]
      rfl
    simp only [List.mem_cons, List.not_mem_nil, or_false] at hmark
    rcases hmark with rfl | rfl
    · exact hread
    · exact hread

/-- The number that is kept for a whole part with what may come behind it. -/
theorem magnitude?_append {whole fraction exponent : List Char} (hwhole : IsWhole whole)
    (hfraction : IsFraction fraction) (hexponent : IsExponent exponent) (hrest : Closes rest) :
    magnitude? (whole ++ (fraction ++ (exponent ++ rest))) =
      some (if fraction ++ exponent = [] then some (Text.decimal whole) else none, rest) := by
  have hbehind := head?_exponent hexponent hrest
  have hdigits := isDigit_head?_fraction hfraction fun c hc => (hbehind c hc).1
  unfold magnitude?
  rw [whole?_append hwhole hdigits]
  show (fraction? _ >>= _) = _
  rw [fraction?_append hfraction hbehind]
  show (exponent? _ >>= _) = _
  rw [exponent?_append hexponent hrest]
  cases fraction with
  | nil => cases exponent <;> rfl
  | cons _ _ => rfl

theorem magnitude?_whole (h : IsWhole cs) (hrest : Closes rest) :
    magnitude? (cs ++ rest) = some (some (Text.decimal cs), rest) :=
  magnitude?_append h .absent .absent hrest

theorem le_foldl_decimal (cs : List Char) (n : Nat) :
    n ≤ cs.foldl (fun n c => 10 * n + (c.toNat - '0'.toNat)) n := by
  induction cs generalizing n with
  | nil => exact Nat.le_refl n
  | cons c cs ih =>
    have hstep : n ≤ 10 * n + (c.toNat - '0'.toNat) := by omega
    exact Nat.le_trans hstep (ih _)

/-- Only a single zero is a whole part that writes zero. -/
theorem decimal_pos (h : IsWhole cs) (hne : cs ≠ ['0']) : 0 < Text.decimal cs := by
  obtain ⟨⟨hnil, hdigits⟩, hzero⟩ := h
  cases cs with
  | nil => exact absurd rfl hnil
  | cons c cs =>
    have hc : c ≠ '0' := by
      rintro rfl
      exact hne (hzero rfl)
    have hdigit : c.isDigit = true := hdigits c List.mem_cons_self
    have hfirst : 0 < c.toNat - '0'.toNat := by
      simp only [Char.isDigit, ge_iff_le, Bool.and_eq_true, decide_eq_true_eq] at hdigit
      have hlow : '0'.toNat ≤ c.toNat := hdigit.1
      have hne : c.toNat ≠ '0'.toNat := fun heq => hc (Char.toNat_inj.mp heq)
      omega
    rw [← Nat.zero_add (c.toNat - '0'.toNat)] at hfirst
    exact Nat.lt_of_lt_of_le hfirst (le_foldl_decimal cs (10 * 0 + (c.toNat - '0'.toNat)))

/-- A number without a minus sign begins with a digit. -/
theorem number?_of_digit (h : IsWhole cs) {behind : List Char} :
    number? (cs ++ behind) = (magnitude? (cs ++ behind)).map fun (n, rest) =>
      match n with
      | some n => (.integer n, rest)
      | none => (.inexact, rest) := by
  unfold number?
  split
  · next heq =>
    cases cs with
    | nil => exact absurd rfl h.1.1
    | cons c cs =>
      obtain ⟨rfl, -⟩ := List.cons.inj heq
      exact absurd (h.1.2 _ List.mem_cons_self) (by decide)
  · rfl

end Numbers

/-! ## 2. Strings -/

theorem pieces?_append {pieces : List Piece} {spellings : List (List Char)}
    (h : List.Forall₂ Piece.Spelled pieces spellings) (done : List Piece) (rest : List Char) :
    pieces? done (spellings.flatten ++ '"' :: rest) = some (done.reverse ++ pieces, rest) := by
  induction h generalizing done with
  | nil => simp [pieces?]
  | @cons piece spelling pieces spellings hpiece _ ih =>
    rw [List.flatten_cons, List.append_assoc]
    cases hpiece with
    | @plain c hquote hbackslash hcontrol =>
      -- A plain character begins no escape and does not end the string.
      have hc : ¬ (c = '\\' ∨ c.toNat < 0x20) := by
        rintro (heq | hlt)
        · exact hbackslash heq
        · omega
      rw [List.singleton_append, pieces?, if_neg hc, ih]
      · simp
      · exact hquote
      · exact fun _ _ _ _ _ heq _ => hbackslash heq
      · exact fun _ _ heq _ => hbackslash heq
    | @letter letter c hletter =>
      have hu : letter ≠ 'u' := by
        rintro rfl
        cases hletter
      simp only [List.cons_append, List.nil_append]
      rw [pieces?, hletter]
      · simp [ih]
      · exact fun _ _ _ _ _ heq _ => hu heq
    | @number a b c d n hn =>
      simp only [List.cons_append, List.nil_append]
      rw [pieces?, hn]
      simp [ih]

/-! ## 3. A token -/

section Tokens

variable {t : Token} {cs rest : List Char}

/-- What begins neither a mark nor a word nor a string is read as a number. -/
theorem token?_of_number {c : Char} (h : c = '-' ∨ c.isDigit = true) :
    token? (c :: cs) = (number? (c :: cs)).map fun (a, rest) => (.atom a, rest) := by
  unfold token?
  split <;> first
    | rfl
    | next heq =>
      obtain ⟨rfl, -⟩ := List.cons.inj heq
      exact absurd h (by decide)

theorem token?_number {cs : List Char} (h : IsWhole cs) {behind : List Char} :
    token? (cs ++ behind) = (number? (cs ++ behind)).map fun (a, rest) => (.atom a, rest) := by
  obtain ⟨⟨hne, hdigits⟩, -⟩ := h
  cases cs with
  | nil => exact absurd rfl hne
  | cons c cs => exact token?_of_number (.inr (hdigits c List.mem_cons_self))

theorem token?_atom {a : Atom} (h : a.Spelled cs) (hrest : Closes rest) :
    token? (cs ++ rest) = some (.atom a, rest) := by
  cases h with
  | null => rfl
  | true => rfl
  | false => rfl
  | natural hwhole =>
    rw [token?_number hwhole, number?_of_digit hwhole, magnitude?_whole hwhole hrest]
    rfl
  | @negative cs hwhole hzero =>
    rw [List.cons_append, token?_of_number (.inl rfl)]
    show ((magnitude? (cs ++ rest)).map _).map _ = _
    rw [magnitude?_whole hwhole hrest]
    obtain ⟨n, hn⟩ := Nat.exists_eq_succ_of_ne_zero (Nat.pos_iff_ne_zero.mp (decimal_pos hwhole hzero))
    rw [hn]
    rfl
  | minusZero =>
    rw [List.cons_append, token?_of_number (.inl rfl)]
    show ((magnitude? (['0'] ++ rest)).map _).map _ = _
    have hzero : IsWhole ['0'] := isWhole_toDigits 0
    rw [magnitude?_whole hzero hrest]
    rfl
  | @inexact minus whole fraction exponent hminus hwhole hfraction hexponent hsome =>
    have hread := magnitude?_append hwhole hfraction hexponent hrest
    rw [if_neg hsome] at hread
    simp only [List.mem_cons, List.not_mem_nil, or_false] at hminus
    rcases hminus with rfl | rfl
    · simp only [List.nil_append, List.append_assoc]
      rw [token?_number hwhole, number?_of_digit hwhole, hread]
      rfl
    · simp only [List.cons_append, List.nil_append, List.append_assoc]
      rw [token?_of_number (.inl rfl)]
      show ((magnitude? _).map _).map _ = _
      rw [hread]
      rfl
  | @string pieces spellings hpieces =>
    show (pieces? [] ((spellings.flatten ++ ['"']) ++ rest)).map _ = _
    rw [List.append_assoc, List.singleton_append, pieces?_append hpieces]
    rfl

/-- A token is read in each of its spellings. Behind a value there has to be its end. -/
theorem token?_append (h : t.Spelled cs) (hrest : t.isMark = true ∨ Closes rest) :
    token? (cs ++ rest) = some (t, rest) := by
  cases h with
  | atom ha =>
    rcases hrest with hmark | hcloses
    · cases hmark
    · exact token?_atom ha hcloses
  | _ => rfl

theorem token?_space {c : Char} (h : isSpace c = true) (cs : List Char) : token? (c :: cs) = none := by
  simp only [isSpace, Bool.or_eq_true, beq_iff_eq] at h
  rcases h with ((rfl | rfl) | rfl) | rfl <;> rfl

theorem closes_nil : Closes [] :=
  fun _ hc => nomatch hc

/-- A token has a character at least, and begins with no blank: neither is read as a token. -/
theorem Token.Spelled.exists_cons (h : t.Spelled cs) :
    ∃ c rest, cs = c :: rest ∧ isSpace c = false := by
  have hread := token?_append h (.inr closes_nil)
  rw [List.append_nil] at hread
  cases cs with
  | nil => cases hread
  | cons c cs =>
    refine ⟨c, cs, rfl, Bool.eq_false_iff.mpr fun hspace => ?_⟩
    rw [token?_space hspace] at hread
    cases hread

end Tokens

/-! ## 4. Tokens with blanks around them -/

section Laid

variable {ts : List Token} {cs gap : List Char}

theorem separated_cons {t : Token} :
    Separated (t :: ts) ↔
      (∀ t' ∈ ts.head?, t.isMark = true ∨ t'.isMark = true) ∧ Separated ts :=
  List.isChain_cons

theorem closes_of_isSpace {c : Char} (h : isSpace c = true) (cs : List Char) : Closes (c :: cs) := by
  rintro c' ⟨⟩
  simp only [isSpace, Bool.or_eq_true, beq_iff_eq] at h
  rcases h with ((rfl | rfl) | rfl) | rfl <;> decide

theorem closes_of_isMark {t : Token} (hmark : t.isMark = true) (h : t.Spelled cs)
    (rest : List Char) : Closes (cs ++ rest) := by
  cases h with
  | atom _ => cases hmark
  | _ =>
    rintro c ⟨⟩
    decide

/-- Behind a value comes its end if the next token is none, or if there is none. -/
theorem closes_of_laid (h : Laid ts cs) (hnext : ∀ t ∈ ts.head?, t.isMark = true)
    (hgap : ∀ c ∈ gap, isSpace c = true) : Closes (cs ++ gap) := by
  have hblank : ∀ {gap rest : List Char}, (∀ c ∈ gap, isSpace c = true) → Closes rest →
      Closes (gap ++ rest) := by
    intro gap rest hgap hrest
    cases gap with
    | nil => exact hrest
    | cons c gap => exact closes_of_isSpace (hgap c List.mem_cons_self) _
  cases h with
  | nil =>
    have h := hblank hgap closes_nil
    rwa [List.append_nil] at h
  | @cons t ts front cs rest hfront ht _ =>
    rw [List.append_assoc, List.append_assoc]
    exact hblank hfront (closes_of_isMark (hnext t rfl) ht _)

theorem scanFrom_gap (hgap : ∀ c ∈ gap, isSpace c = true) (done : List Token) (steps : Nat)
    (cs : List Char) :
    scanFrom done (gap.length + steps) (gap ++ cs) = scanFrom done steps cs := by
  induction gap with
  | nil => rw [List.length_nil, Nat.zero_add, List.nil_append]
  | cons c gap ih =>
    obtain ⟨hc, hgap⟩ := List.forall_mem_cons.mp hgap
    rw [List.length_cons, Nat.add_right_comm, List.cons_append, scanFrom, if_pos hc, ih hgap]

theorem scanFrom_token {t : Token} (h : t.Spelled cs) {rest : List Char}
    (hrest : t.isMark = true ∨ Closes rest) (done : List Token) (steps : Nat) :
    scanFrom done (steps + 1) (cs ++ rest) = scanFrom (t :: done) steps rest := by
  have hread := token?_append h hrest
  obtain ⟨c, cs, rfl, hc⟩ := h.exists_cons
  rw [List.cons_append] at hread ⊢
  rw [scanFrom, if_neg (Bool.eq_false_iff.mp hc), hread]

/-- The steps are enough if there are more of them than characters. -/
theorem scanFrom_laid (h : Laid ts cs) (hts : Separated ts) (hgap : ∀ c ∈ gap, isSpace c = true)
    (done : List Token) {steps : Nat} (hsteps : (cs ++ gap).length < steps) :
    scanFrom done steps (cs ++ gap) = some (done.reverse ++ ts) := by
  induction h generalizing done steps with
  | nil =>
    obtain ⟨k, rfl⟩ := Nat.exists_eq_add_of_lt hsteps
    have h := scanFrom_gap hgap done (k + 1) []
    rw [List.append_nil] at h
    rw [List.nil_append, Nat.add_assoc, h, List.append_nil]
    rfl
  | @cons t ts front cs rest hfront ht hlaid ih =>
    obtain ⟨hnext, hts⟩ := separated_cons.mp hts
    -- A token that is not a mark has to end before a gap, a mark or the end of the text.
    have hclose : t.isMark = true ∨ Closes (rest ++ gap) := by
      by_cases hmark : t.isMark = true
      · exact .inl hmark
      · exact .inr (closes_of_laid hlaid (fun t' ht' => (hnext t' ht').resolve_left hmark) hgap)
    have hlength : 0 < cs.length := by
      obtain ⟨c, cs, rfl, -⟩ := ht.exists_cons
      exact Nat.succ_pos _
    simp only [List.length_append] at hsteps
    obtain ⟨k, rfl⟩ : ∃ k, steps = front.length + (k + 1) :=
      ⟨steps - front.length - 1, by omega⟩
    have hrest : (rest ++ gap).length < k := by
      rw [List.length_append]
      omega
    rw [List.append_assoc, List.append_assoc, scanFrom_gap hfront, scanFrom_token ht hclose,
      ih hts _ hrest, List.reverse_cons, List.append_assoc]
    rfl

theorem scan_of_laid {text : String} (htext : text.toList = cs ++ gap) (h : Laid ts cs)
    (hts : Separated ts) (hgap : ∀ c ∈ gap, isSpace c = true) : scan text = some ts := by
  show scanFrom [] (text.toList.length + 1) text.toList = _
  rw [htext, scanFrom_laid h hts hgap [] (Nat.lt_succ_self _)]
  rfl

end Laid

end ByteScan.Json
