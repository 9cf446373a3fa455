import ByteScan.Json.Printer
import ByteScan.Proofs.Text.Decimal
import Mathlib.Data.List.Forall2

/-!
# The grammar of JSON documents

A document is a series of tokens with blanks between them. Which series of tokens is a value is said
by `Json.tokens`; here it is said how a token may be spelled. A number has no zero in front of other
digits, and may have a fraction and an exponent. In a string a character stands for itself, or it is
escaped by a letter or by its number; quotes, backslashes and control characters have to be escaped.

* `Piece.Spelled`, `Atom.Spelled`, `Token.Spelled`: the spellings of a token.
* `Laid`: tokens with blanks in front of them.
* `Writes`: a document that holds a value.

Results:
1. `Atom.spelled_text`: values without parts are written in one of their spellings.
2. `Laid.append`, `Laid.indent`: tokens one after another.
3. `writes_pretty`: the pretty layout of a value is a document that holds it.
-/

namespace ByteScan.Json

/-! ## Definitions -/

/-- Decimal digits, at least one of them. -/
def IsDigits (cs : List Char) : Prop :=
  cs ≠ [] ∧ ∀ c ∈ cs, c.isDigit = true

/-- The whole part of a number: digits that begin with a zero only if it stands alone. -/
def IsWhole (cs : List Char) : Prop :=
  IsDigits cs ∧ (cs.head? = some '0' → cs = ['0'])

/-- The fraction of a number, if it has one. -/
inductive IsFraction : List Char → Prop
  | absent : IsFraction []
  | present {cs : List Char} (h : IsDigits cs) : IsFraction ('.' :: cs)

/-- The exponent of a number, if it has one. -/
inductive IsExponent : List Char → Prop
  | absent : IsExponent []
  | present {mark : Char} {sign cs : List Char} (hmark : mark ∈ ['e', 'E'])
      (hsign : sign ∈ [[], ['+'], ['-']]) (h : IsDigits cs) : IsExponent (mark :: (sign ++ cs))

/-- The spellings of a piece of a string. -/
inductive Piece.Spelled : Piece → List Char → Prop
  | plain {c : Char} (hquote : c ≠ '"') (hbackslash : c ≠ '\\') (hcontrol : 0x20 ≤ c.toNat) :
      Spelled (.char c) [c]
  | letter {letter c : Char} (h : unescape? letter = some c) : Spelled (.char c) ['\\', letter]
  | number {a b c d : Char} {n : Nat} (h : unit? a b c d = some n) :
      Spelled (.unit n) ['\\', 'u', a, b, c, d]

/-- The spellings of a value without parts. A number that has a fraction or an exponent, and minus
zero, are no whole numbers. -/
inductive Atom.Spelled : Atom → List Char → Prop
  | null : Spelled .null ['n', 'u', 'l', 'l']
  | true : Spelled (.bool true) ['t', 'r', 'u', 'e']
  | false : Spelled (.bool false) ['f', 'a', 'l', 's', 'e']
  | natural {cs : List Char} (h : IsWhole cs) : Spelled (.integer (Text.decimal cs)) cs
  | negative {cs : List Char} (h : IsWhole cs) (hzero : cs ≠ ['0']) :
      Spelled (.integer (-(Text.decimal cs : Int))) ('-' :: cs)
  | minusZero : Spelled .inexact ['-', '0']
  | inexact {minus whole fraction exponent : List Char} (hminus : minus ∈ [[], ['-']])
      (hwhole : IsWhole whole) (hfraction : IsFraction fraction) (hexponent : IsExponent exponent)
      (hsome : fraction ++ exponent ≠ []) : Spelled .inexact (minus ++ whole ++ fraction ++ exponent)
  | string {pieces : List Piece} {spellings : List (List Char)}
      (h : List.Forall₂ Piece.Spelled pieces spellings) :
      Spelled (.string ((join? pieces).map String.ofList)) ('"' :: spellings.flatten ++ ['"'])

/-- The spellings of a token. -/
inductive Token.Spelled : Token → List Char → Prop
  | openArray : Spelled .openArray ['[']
  | closeArray : Spelled .closeArray [']']
  | openObject : Spelled .openObject ['\x7b']
  | closeObject : Spelled .closeObject ['\x7d']
  | comma : Spelled .comma [',']
  | colon : Spelled .colon [':']
  | atom {a : Atom} {cs : List Char} (h : a.Spelled cs) : Spelled (.atom a) cs

/-- Tokens, each in one of its spellings and with blanks, or with none, in front of it. -/
inductive Laid : List Token → List Char → Prop
  | nil : Laid [] []
  | cons {t : Token} {ts : List Token} {gap cs rest : List Char} (hgap : ∀ c ∈ gap, isSpace c = true)
      (ht : t.Spelled cs) (hts : Laid ts rest) : Laid (t :: ts) (gap ++ cs ++ rest)

/-- A document that holds a value: the tokens of the value, with blanks between them and on both
sides. -/
def Writes (v : Json) (document : String) : Prop :=
  ∃ cs gap, document.toList = cs ++ gap ∧ Laid v.tokens cs ∧ ∀ c ∈ gap, isSpace c = true

/-! ## 1. Values without parts -/

theorem isWhole_toDigits (n : Nat) : IsWhole (Nat.toDigits 10 n) := by
  refine ⟨⟨Nat.toDigits_ne_nil, fun c => Nat.isDigit_of_mem_toDigits (by decide) (by decide)⟩, ?_⟩
  intro hzero
  by_cases hn : n = 0
  · rw [hn, Nat.toDigits_zero]
  · exact absurd hzero (Text.head?_toDigits hn)

/-- The piece as which a character is written. -/
def pieceOf (c : Char) : Piece :=
  if c.toNat < 0x20 ∧ c ∉ ['\n', '\r', '\t', '\x08', '\x0c'] then .unit c.toNat else .char c

theorem unit?_digitChar {n : Nat} (h : n < 0x20) :
    unit? '0' '0' (Nat.digitChar (n / 16)) (Nat.digitChar (n % 16)) = some n := by
  have hall : ∀ n : Fin 0x20,
      unit? '0' '0' (Nat.digitChar (n.val / 16)) (Nat.digitChar (n.val % 16)) = some n.val := by
    decide
  exact hall ⟨n, h⟩

theorem spelled_escape (c : Char) : (pieceOf c).Spelled (escape c) := by
  unfold escape
  split_ifs with hquote hbackslash hfeed hreturn htab hback hform hcontrol
  · subst hquote
    exact .letter rfl
  · subst hbackslash
    exact .letter rfl
  · subst hfeed
    exact .letter rfl
  · subst hreturn
    exact .letter rfl
  · subst htab
    exact .letter rfl
  · subst hback
    exact .letter rfl
  · subst hform
    exact .letter rfl
  · have hpiece : pieceOf c = .unit c.toNat := if_pos ⟨hcontrol, by simp [*]⟩
    rw [hpiece]
    exact .number (unit?_digitChar hcontrol)
  · have hpiece : pieceOf c = .char c := if_neg fun h => hcontrol h.1
    rw [hpiece]
    exact .plain hquote hbackslash (Nat.le_of_not_lt hcontrol)

theorem join?_unit {n : Nat} (h : n < 0xD800) (pieces : List Piece) :
    join? (.unit n :: pieces) = (join? pieces).map (Char.ofNat n :: ·) := by
  have hhigh : isHigh n = false := by simp [isHigh]; omega
  have hlow : isLow n = false := by simp [isLow]; omega
  cases pieces with
  | nil => simp [join?, hhigh, hlow]
  | cons piece pieces =>
    cases piece with
    | char c => simp [join?, hhigh, hlow]
    | unit m => rw [join?, hhigh, hlow]; rfl

theorem join?_pieceOf (cs : List Char) : join? (cs.map pieceOf) = some cs := by
  induction cs with
  | nil => rfl
  | cons c cs ih =>
    rw [List.map_cons, pieceOf]
    split
    · next h => rw [join?_unit (by omega), ih, Option.map_some, Char.ofNat_toNat]
    · rw [join?, ih, Option.map_some]

theorem spelled_quote (text : String) :
    (Atom.string (some text)).Spelled (quote text).toList := by
  have hpieces : List.Forall₂ Piece.Spelled (text.toList.map pieceOf) (text.toList.map escape) := by
    rw [List.forall₂_map_left_iff, List.forall₂_map_right_iff]
    exact List.forall₂_same.mpr fun c _ => spelled_escape c
  have h := Atom.Spelled.string hpieces
  rw [join?_pieceOf, Option.map_some, String.ofList_toList] at h
  simpa [quote, List.flatMap] using h

theorem Atom.spelled_text (a : Atom) : a.Spelled a.text.toList := by
  cases a with
  | null => exact .null
  | bool b =>
    cases b with
    | true => exact .true
    | false => exact .false
  | inexact =>
    have hwhole : IsWhole ['0'] := isWhole_toDigits 0
    exact .inexact (List.mem_cons_self) hwhole (.present hwhole.1) .absent (by decide)
  | string text =>
    cases text with
    | some text => exact spelled_quote text
    | none =>
      have hpieces : List.Forall₂ Piece.Spelled [.unit 0xD800]
          [['\\', 'u', 'd', '8', '0', '0']] := .cons (.number (by decide)) .nil
      exact .string hpieces
  | integer n =>
    cases n with
    | ofNat n =>
      have h := Spelled.natural (isWhole_toDigits n)
      rwa [Text.decimal_toDigits, ← Text.toList_toString_ofNat] at h
    | negSucc n =>
      have hzero : Nat.toDigits 10 (n + 1) ≠ ['0'] := fun hzero =>
        Text.head?_toDigits (Nat.succ_ne_zero n) (by rw [hzero, List.head?_singleton])
      have h := Spelled.negative (isWhole_toDigits (n + 1)) hzero
      rwa [Text.decimal_toDigits, ← Text.toList_toString_negSucc] at h

theorem spelled_stringText (name : Option String) :
    (Token.atom (.string name)).Spelled (stringText name).toList :=
  .atom (Atom.spelled_text (.string name))

/-! ## 2. Tokens one after another -/

namespace Laid

variable {t : Token} {ts us : List Token} {cs ds gap : List Char}

theorem token (h : t.Spelled cs) : Laid [t] cs := by
  have hlaid := Laid.cons (List.forall_mem_nil _) h .nil
  rwa [List.nil_append, List.append_nil] at hlaid

theorem append (h : Laid ts cs) (h' : Laid us ds) : Laid (ts ++ us) (cs ++ ds) := by
  induction h with
  | nil => exact h'
  | cons hgap ht hts ih =>
    rw [List.cons_append, List.append_assoc]
    exact .cons hgap ht ih

theorem indent (hgap : ∀ c ∈ gap, isSpace c = true) (hne : ts ≠ []) (h : Laid ts cs) :
    Laid ts (gap ++ cs) := by
  cases h with
  | nil => exact absurd rfl hne
  | cons hgap' ht hts =>
    rw [← List.append_assoc, ← List.append_assoc]
    exact .cons (List.forall_mem_append.mpr ⟨hgap, hgap'⟩) ht hts

end Laid

theorem tokens_ne_nil (v : Json) : v.tokens ≠ [] := by
  cases v with
  | atom a => exact List.cons_ne_nil _ _
  | array items => cases items <;> exact List.cons_ne_nil _ _
  | object members => cases members <;> exact List.cons_ne_nil _ _

/-! ## 3. The pretty layout -/

theorem isSpace_of_mem_newLine (depth : Nat) : ∀ c ∈ (newLine depth).toList, isSpace c = true := by
  intro c hc
  rw [newLine, String.toList_ofList, List.mem_cons, List.mem_replicate] at hc
  obtain rfl | ⟨-, rfl⟩ := hc <;> rfl

theorem isSpace_of_mem_space : ∀ c ∈ [' '], isSpace c = true :=
  List.forall_mem_singleton.mpr rfl

mutual

theorem laid_prettyAt (depth : Nat) : (v : Json) → Laid v.tokens (v.prettyAt depth).toList
  | .atom a => .token (.atom a.spelled_text)
  | .array [] => by
    have h := (Laid.token .openArray).append (.token .closeArray)
    simpa [tokens, prettyAt] using h
  | .array (v :: vs) => by
    have hv := (laid_prettyAt (depth + 1) v).indent (isSpace_of_mem_newLine (depth + 1))
      v.tokens_ne_nil
    have h := (Laid.token .openArray).append (hv.append (laid_prettyItems depth vs))
    simpa [tokens, prettyAt] using h
  | .object [] => by
    have h := (Laid.token .openObject).append (.token .closeObject)
    simpa [tokens, prettyAt] using h
  | .object ((name, v) :: ms) => by
    have hname := (Laid.token (spelled_stringText name)).indent
      (isSpace_of_mem_newLine (depth + 1)) (List.cons_ne_nil _ _)
    have hv := (laid_prettyAt (depth + 1) v).indent isSpace_of_mem_space v.tokens_ne_nil
    have h := (Laid.token .openObject).append (hname.append ((Laid.token .colon).append
      (hv.append (laid_prettyMembers depth ms))))
    simpa [tokens, prettyAt] using h

theorem laid_prettyItems (depth : Nat) :
    (vs : List Json) → Laid (moreItems vs) (prettyItems depth vs).toList
  | [] => by
    have h := (Laid.token .closeArray).indent (isSpace_of_mem_newLine depth) (List.cons_ne_nil _ _)
    simpa [moreItems, prettyItems] using h
  | v :: vs => by
    have hv := (laid_prettyAt (depth + 1) v).indent (isSpace_of_mem_newLine (depth + 1))
      v.tokens_ne_nil
    have h := (Laid.token .comma).append (hv.append (laid_prettyItems depth vs))
    simpa [moreItems, prettyItems] using h

theorem laid_prettyMembers (depth : Nat) :
    (ms : List (Option String × Json)) → Laid (moreMembers ms) (prettyMembers depth ms).toList
  | [] => by
    have h := (Laid.token .closeObject).indent (isSpace_of_mem_newLine depth) (List.cons_ne_nil _ _)
    simpa [moreMembers, prettyMembers] using h
  | (name, v) :: ms => by
    have hname := (Laid.token (spelled_stringText name)).indent
      (isSpace_of_mem_newLine (depth + 1)) (List.cons_ne_nil _ _)
    have hv := (laid_prettyAt (depth + 1) v).indent isSpace_of_mem_space v.tokens_ne_nil
    have h := (Laid.token .comma).append (hname.append ((Laid.token .colon).append
      (hv.append (laid_prettyMembers depth ms))))
    simpa [moreMembers, prettyMembers] using h

end

theorem writes_pretty (v : Json) : v.Writes v.pretty :=
  ⟨v.pretty.toList, [], (List.append_nil _).symm, laid_prettyAt 0 v, List.forall_mem_nil _⟩

end ByteScan.Json
