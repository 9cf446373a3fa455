import ByteScan.Json.Reader
import ByteScan.Proofs.Json.Scanning

/-!
# A document is read as the value that it holds

The reader goes over the tokens of a value and comes to the place behind it, with the value in its
hands and the arrays and objects around it as they were. So it reads each document as the value that
the document holds, however the document is laid out and its tokens are spelled, and a document holds
one value only.

Results:
1. `separated_tokens`: the tokens of a value.
2. `readFrom_tokens`: a value among other tokens.
3. `read?_of_writes`: documents. `writes_compact`: the layout without blanks is one.
-/

namespace ByteScan.Json

/-! ## 1. The tokens of a value -/

theorem separated_mark {t : Token} (h : t.isMark = true) {ts : List Token} (hts : Separated ts) :
    Separated (t :: ts) :=
  separated_cons.mpr ⟨fun _ _ => .inl h, hts⟩

theorem separated_atom (a : Atom) {ts : List Token} (hnext : ∀ t ∈ ts.head?, t.isMark = true)
    (hts : Separated ts) : Separated (.atom a :: ts) :=
  separated_cons.mpr ⟨fun t ht => .inr (hnext t ht), hts⟩

theorem isMark_moreItems (vs : List Json) (ts : List Token) :
    ∀ t ∈ (moreItems vs ++ ts).head?, t.isMark = true := by
  cases vs <;> rintro t ⟨⟩ <;> rfl

theorem isMark_moreMembers (ms : List (Option String × Json)) (ts : List Token) :
    ∀ t ∈ (moreMembers ms ++ ts).head?, t.isMark = true := by
  cases ms <;> rintro t ⟨⟩ <;> rfl

mutual

/-- The tokens of a value in front of others, the first of which is no value. -/
theorem separated_tokens_append (ts : List Token) (hnext : ∀ t ∈ ts.head?, t.isMark = true)
    (hts : Separated ts) : (v : Json) → Separated (v.tokens ++ ts)
  | .atom a => separated_atom a hnext hts
  | .array [] => separated_mark rfl (separated_mark rfl hts)
  | .array (v :: vs) => by
    rw [tokens, List.cons_append, List.append_assoc]
    exact separated_mark rfl (separated_tokens_append _ (isMark_moreItems vs ts)
      (separated_moreItems ts hts vs) v)
  | .object [] => separated_mark rfl (separated_mark rfl hts)
  | .object ((name, v) :: ms) => by
    rw [tokens, List.cons_append, List.cons_append, List.cons_append, List.append_assoc]
    refine separated_mark rfl (separated_atom _ (fun t ht => ?_) (separated_mark rfl ?_))
    · obtain rfl := Option.some.inj ht
      rfl
    · exact separated_tokens_append _ (isMark_moreMembers ms ts) (separated_moreMembers ts hts ms) v

theorem separated_moreItems (ts : List Token) (hts : Separated ts) :
    (vs : List Json) → Separated (moreItems vs ++ ts)
  | [] => separated_mark rfl hts
  | v :: vs => by
    rw [moreItems, List.cons_append, List.append_assoc]
    exact separated_mark rfl (separated_tokens_append _ (isMark_moreItems vs ts)
      (separated_moreItems ts hts vs) v)

theorem separated_moreMembers (ts : List Token) (hts : Separated ts) :
    (ms : List (Option String × Json)) → Separated (moreMembers ms ++ ts)
  | [] => separated_mark rfl hts
  | (name, v) :: ms => by
    rw [moreMembers, List.cons_append, List.cons_append, List.cons_append, List.append_assoc]
    refine separated_mark rfl (separated_atom _ (fun t ht => ?_) (separated_mark rfl ?_))
    · obtain rfl := Option.some.inj ht
      rfl
    · exact separated_tokens_append _ (isMark_moreMembers ms ts) (separated_moreMembers ts hts ms) v

end

theorem separated_tokens (v : Json) : Separated v.tokens := by
  have h := separated_tokens_append [] (fun _ ht => nomatch ht) .nil v
  rwa [List.append_nil] at h

/-! ## 2. A value among other tokens -/

/-- The first item of an array is read as any value is. -/
theorem readFrom_firstItem (up : List Frame) (v : Json) (ts : List Token) :
    readFrom (.array [] :: up) .firstItem (v.tokens ++ ts) =
      readFrom (.array [] :: up) .value (v.tokens ++ ts) := by
  cases v with
  | atom a => rfl
  | array vs => cases vs <;> rfl
  | object ms => cases ms <;> rfl

mutual

theorem readFrom_tokens (up : List Frame) (ts : List Token) :
    (v : Json) → readFrom up .value (v.tokens ++ ts) = readFrom up (.after v) ts
  | .atom a => by simp [tokens, readFrom]
  | .array [] => by simp [tokens, readFrom]
  | .array (v :: vs) => by
    rw [tokens, List.cons_append, List.append_assoc, readFrom, readFrom_firstItem,
      readFrom_tokens _ _ v, readFrom_moreItems up ts [] v vs]
    rfl
  | .object [] => by simp [tokens, readFrom]
  | .object ((name, v) :: ms) => by
    rw [tokens, List.cons_append, List.cons_append, List.cons_append, List.append_assoc, readFrom,
      readFrom, readFrom, readFrom_tokens _ _ v, readFrom_moreMembers up ts [] name v ms]
    rfl

/-- The items of an array behind those that have been read, the last of which is `v`. -/
theorem readFrom_moreItems (up : List Frame) (ts : List Token) (items : List Json) (v : Json) :
    (vs : List Json) → readFrom (.array items :: up) (.after v) (moreItems vs ++ ts) =
      readFrom up (.after (.array (items.reverse ++ v :: vs))) ts
  | [] => by simp [moreItems, readFrom]
  | w :: vs => by
    rw [moreItems, List.cons_append, List.append_assoc, readFrom, readFrom_tokens _ _ w,
      readFrom_moreItems up ts (v :: items) w vs, List.reverse_cons, List.append_assoc]
    rfl

theorem readFrom_moreMembers (up : List Frame) (ts : List Token)
    (members : List (Option String × Json)) (name : Option String) (v : Json) :
    (ms : List (Option String × Json)) →
      readFrom (.object members name :: up) (.after v) (moreMembers ms ++ ts) =
        readFrom up (.after (.object (members.reverse ++ (name, v) :: ms))) ts
  | [] => by simp [moreMembers, readFrom]
  | (name', w) :: ms => by
    rw [moreMembers, List.cons_append, List.cons_append, List.cons_append, List.append_assoc,
      readFrom, readFrom, readFrom, readFrom_tokens _ _ w,
      readFrom_moreMembers up ts ((name, v) :: members) name' w ms, List.reverse_cons,
      List.append_assoc]
    rfl

end

/-! ## 3. Documents -/

theorem ofTokens?_tokens (v : Json) : ofTokens? v.tokens = some v := by
  have h := readFrom_tokens [] [] v
  rw [List.append_nil] at h
  exact h

/-- A document is read as the value that it holds. -/
theorem read?_of_writes {v : Json} {document : String} (h : v.Writes document) :
    read? document = some v := by
  obtain ⟨cs, gap, hdocument, hlaid, hgap⟩ := h
  show scan document >>= ofTokens? = some v
  rw [scan_of_laid hdocument hlaid (separated_tokens v) hgap]
  exact ofTokens?_tokens v

theorem spelled_text (t : Token) : t.Spelled t.text.toList := by
  cases t with
  | openArray => exact .openArray
  | closeArray => exact .closeArray
  | openObject => exact .openObject
  | closeObject => exact .closeObject
  | comma => exact .comma
  | colon => exact .colon
  | atom a => exact .atom a.spelled_text

theorem laid_join_text (ts : List Token) : Laid ts (String.join (ts.map Token.text)).toList := by
  induction ts with
  | nil => exact .nil
  | cons t ts ih =>
    have h := (Laid.token (spelled_text t)).append ih
    simpa [String.join_cons] using h

theorem writes_compact (v : Json) : v.Writes v.compact :=
  ⟨v.compact.toList, [], (List.append_nil _).symm, laid_join_text v.tokens, List.forall_mem_nil _⟩

end ByteScan.Json
