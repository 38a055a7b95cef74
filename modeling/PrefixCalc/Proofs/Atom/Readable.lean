import PrefixCalc.Sexp.Parts

/-!
# PrefixCalc.Proofs.Atom.Readable

Which atoms their own text stands for.

* `ofToken_eq_name_iff`, `ofToken_of_quote`: the tokens that are read as names.
* `readable_iff`: an atom is readable exactly if its text is a token and this token gives it back.
-/

namespace PrefixCalc

/-! ## Numerals, booleans and operators are words -/

theorem isPlain_of_isDigit {c : Char} (h : c.isDigit = true) : isPlain c = true := by
  have hr : 48 ≤ c.toNat ∧ c.toNat ≤ 57 := Char.isDigit_iff_toNat.mp h
  refine isPlain_iff.mpr ⟨?_, ?_, ?_, ?_⟩
  · rw [← Bool.not_eq_true]
    intro hb
    obtain ⟨r, hm, hl, hu⟩ := CodeRange.covers_iff.mp hb
    simp only [blankRanges, List.mem_cons, List.not_mem_nil, or_false] at hm
    rcases hm with rfl | rfl | rfl | rfl | rfl | rfl | rfl | rfl | rfl | rfl <;> simp at hl hu <;>
      omega
  · rintro rfl
    simp at hr
  · rintro rfl
    simp at hr
  · rintro rfl
    simp at hr

theorem isPlain_ofNat (n : Nat) : ∀ c ∈ (Decimal.ofNat n).toList, isPlain c = true := by
  intro c hc
  rw [Decimal.toList_ofNat] at hc
  exact isPlain_of_isDigit (Nat.isDigit_of_mem_toDigits (by decide) (by decide) hc)

theorem isPlain_ofInt (z : Int) : ∀ c ∈ (Decimal.ofInt z).toList, isPlain c = true := by
  intro c hc
  unfold Decimal.ofInt at hc
  split at hc
  · rw [String.toList_append] at hc
    rcases List.mem_append.mp hc with hc | hc
    · rw [List.mem_singleton.mp hc]
      decide
    · exact isPlain_ofNat _ c hc
  · exact isPlain_ofNat _ c hc

theorem ofInt_ne_nil (z : Int) : (Decimal.ofInt z).toList ≠ [] := by
  unfold Decimal.ofInt
  split
  · simp
  · rw [Decimal.toList_ofNat]
    exact Nat.toDigits_ne_nil

theorem isPlain_boolText (b : Bool) : ∀ c ∈ (boolText b).toList, isPlain c = true := by
  rw [← List.all_eq_true]
  cases b <;> rfl

theorem isPlain_operator (op : Operator) : ∀ c ∈ op.text.toList, isPlain c = true := by
  rw [← List.all_eq_true]
  cases op <;> rfl

/-- A token with a quote in it is no numeral. -/
theorem integer?_of_quote {token : Token} (h : '"' ∈ token.toList) : token.integer? = none := by
  cases hi : token.integer? with
  | none => rfl
  | some n =>
    rw [Token.integer?_eq_some_iff.mp hi] at h
    have hq := isPlain_ofInt n.toInt '"' h
    exact absurd hq (by decide)

/-! ## Quotes at both ends -/

theorem toList_text_str (content : String) :
    (Atom.str content).text.toList = quotedChars content.toList := by
  simp [Atom.text, quotedChars, String.toList_append]

theorem content_text_str (content : String) : Token.content (Atom.str content).text = content := by
  rw [Token.content, toList_text_str]
  simp [quotedChars, String.ofList_toList]

theorem isString_of_head {token : Token} {c : Char} (h : token.toList.head? = some c)
    (hc : c ≠ '"') : token.isString = false := by
  unfold Token.isString
  split
  · rename_i rest hl
    rw [hl] at h
    cases h
    exact absurd rfl hc
  · rfl

/-- A token that starts and ends in quotes is a literal if there is one between the two that no
other quote stands in. -/
theorem isToken_quoted_iff {cs : List Char} :
    IsToken (quotedChars cs) ↔ ∀ c ∈ cs, isContent c = true := by
  constructor
  · intro h
    generalize ht : quotedChars cs = t at h
    cases h with
    | opening => simp [quotedChars] at ht
    | closing => simp [quotedChars] at ht
    | word hne hw =>
      have hq := hw '"' (by simp [← ht, quotedChars])
      exact absurd hq (by decide)
    | @literal w content hw hc =>
      cases w with
      | nil =>
        simp only [quotedChars, List.nil_append, List.cons.injEq, true_and] at ht
        rwa [List.append_cancel_right ht]
      | cons d w =>
        simp only [quotedChars, List.cons_append, List.cons.injEq] at ht
        have hq := hw d (List.mem_cons_self ..)
        rw [← ht.1] at hq
        exact absurd hq (by decide)
  · intro h
    exact .literal (w := []) (by simp) h

/-! ## What tokens are read as -/

theorem ofToken_int (n : Int64) : Atom.ofToken (Atom.int n).text = .ok (.int n) := by
  have hi : Token.integer? (Atom.int n).text = some n := Token.integer?_eq_some_iff.mpr rfl
  simp only [Atom.ofToken, hi]

theorem ofToken_str (content : String) :
    Atom.ofToken (Atom.str content).text = .ok (.str content) := by
  have hi : Token.integer? (Atom.str content).text = none := by
    apply integer?_of_quote
    rw [toList_text_str]
    exact List.mem_cons_self ..
  have hs : Token.isString (Atom.str content).text = true := by
    rw [Token.isString_iff, content_text_str]
    rfl
  simp only [Atom.ofToken, hi, hs, if_true, content_text_str]

theorem ofToken_bool (b : Bool) : Atom.ofToken (Atom.bool b).text = .ok (.bool b) := by
  cases b <;> rfl

theorem ofToken_operator (op : Operator) :
    Atom.ofToken (Atom.sym (.operator op)).text = .ok (.sym (.operator op)) := by
  cases op <;> rfl

/-- A token is read as a name if it is nothing else. -/
theorem ofToken_eq_name_iff {token : Token} :
    Atom.ofToken token = .ok (.sym (.name token)) ↔
      token.isInteger = false ∧ token.isString = false ∧ token.isBoolean = false ∧
        Operator.ofText? token = none := by
  unfold Atom.ofToken Token.isInteger
  cases hi : token.integer? with
  | some n => simp
  | none =>
    cases hs : token.isString with
    | true => simp
    | false =>
      cases hb : token.isBoolean with
      | true =>
        obtain ⟨b, rfl⟩ := Token.isBoolean_iff.mp hb
        cases b <;> simp [Token.boolean, boolText]
      | false =>
        unfold Symbol.ofText
        cases ho : Operator.ofText? token with
        | none => simp
        | some op => simp

/-- A token with a quote in it is a name, unless it is a string. -/
theorem ofToken_of_quote {token : Token} (h : '"' ∈ token.toList) (hs : token.isString = false) :
    Atom.ofToken token = .ok (.sym (.name token)) := by
  refine ofToken_eq_name_iff.mpr ⟨?_, hs, ?_, ?_⟩
  · rw [Token.isInteger, integer?_of_quote h]
    rfl
  · rw [← Bool.not_eq_true]
    intro hb
    obtain ⟨b, rfl⟩ := Token.isBoolean_iff.mp hb
    exact absurd (isPlain_boolText b '"' h) (by decide)
  · rw [Option.eq_none_iff_forall_ne_some]
    intro op hop
    rw [Operator.ofText?_eq_some_iff.mp hop] at h
    exact absurd (isPlain_operator op '"' h) (by decide)

/-! ## Readable atoms -/

theorem ne_paren_of_head {text : String} {c : Char} (h : text.toList.head? = some c)
    (ho : c ≠ '(') (hc : c ≠ ')') : text ≠ Token.opening ∧ text ≠ Token.closing := by
  constructor
  · rintro rfl
    exact ho (Option.some.inj h).symm
  · rintro rfl
    exact hc (Option.some.inj h).symm

/-- The first character of a word, and that of a word with a literal at its end. -/
theorem IsWord.exists_head {cs : List Char} (h : IsWord cs) :
    ∃ c, cs.head? = some c ∧ isPlain c = true := by
  obtain ⟨w, hne, hw, hcs⟩ := h
  obtain ⟨c, w, rfl⟩ := List.exists_cons_of_ne_nil hne
  refine ⟨c, ?_, hw c (List.mem_cons_self ..)⟩
  rcases hcs with rfl | ⟨content, -, rfl⟩ <;> rfl

theorem IsWord.isToken {cs : List Char} (h : IsWord cs) : IsToken cs := by
  obtain ⟨w, hne, hw, hcs⟩ := h
  rcases hcs with rfl | ⟨content, hc, rfl⟩
  · exact .word hne hw
  · exact .literal hw hc

/-- A token is a parenthesis, a string literal or a word. -/
theorem IsToken.isWord {token : Token} (h : IsToken token.toList) (ho : token ≠ Token.opening)
    (hc : token ≠ Token.closing) (hs : token.isString = false) : IsWord token.toList := by
  generalize hcs : token.toList = cs at h
  cases h with
  | opening => exact absurd (String.toList_injective hcs) ho
  | closing => exact absurd (String.toList_injective hcs) hc
  | word hne hw => exact ⟨cs, hne, hw, .inl rfl⟩
  | @literal w content hw hcontent =>
    cases w with
    | nil =>
      have hq : token.isString = true := by simp [Token.isString, hcs, quotedChars]
      rw [hs] at hq
      cases hq
    | cons d w => exact ⟨d :: w, by simp, hw, .inr ⟨content, hcontent, rfl⟩⟩

theorem isName_iff {text : String} :
    IsName text ↔ (Atom.sym (.name text)).Restorable ∧ IsToken text.toList := by
  unfold IsName Atom.Restorable
  constructor
  · rintro ⟨hw, hi, hb, hop⟩
    obtain ⟨c, hc, hplain⟩ := hw.exists_head
    obtain ⟨-, ho, hcl, hq⟩ := isPlain_iff.mp hplain
    have hs : Token.isString text = false := isString_of_head hc hq
    exact ⟨⟨ofToken_eq_name_iff.mpr ⟨hi, hs, hb, hop⟩, ne_paren_of_head hc ho hcl⟩, hw.isToken⟩
  · rintro ⟨⟨hname, ho, hcl⟩, ht⟩
    obtain ⟨hi, hs, hb, hop⟩ := ofToken_eq_name_iff.mp hname
    exact ⟨ht.isWord ho hcl hs, hi, hb, hop⟩

theorem restorable_of_plain {leaf : Atom} (h : Atom.ofToken leaf.text = .ok leaf)
    (hne : leaf.text.toList ≠ []) (hw : ∀ c ∈ leaf.text.toList, isPlain c = true) :
    leaf.Restorable ∧ IsToken leaf.text.toList := by
  have hword : IsWord leaf.text.toList := ⟨_, hne, hw, .inl rfl⟩
  obtain ⟨c, hc, hplain⟩ := hword.exists_head
  obtain ⟨-, ho, hcl, -⟩ := isPlain_iff.mp hplain
  exact ⟨⟨h, ne_paren_of_head hc ho hcl⟩, hword.isToken⟩

/-- An atom is readable exactly if its text is a token, no parenthesis, that gives it back. -/
theorem readable_iff {leaf : Atom} :
    leaf.Readable ↔ leaf.Restorable ∧ IsToken leaf.text.toList := by
  cases leaf with
  | int n =>
    refine ⟨fun _ => ?_, fun _ => trivial⟩
    exact restorable_of_plain (ofToken_int n) (ofInt_ne_nil n.toInt) (isPlain_ofInt n.toInt)
  | str content =>
    have hhead : (Atom.str content).text.toList.head? = some '"' := by
      rw [toList_text_str]
      rfl
    have hrest : (Atom.str content).Restorable :=
      ⟨ofToken_str content, ne_paren_of_head hhead (by decide) (by decide)⟩
    rw [toList_text_str, isToken_quoted_iff]
    exact ⟨fun h => ⟨hrest, h⟩, fun h => h.2⟩
  | bool b =>
    refine ⟨fun _ => ?_, fun _ => trivial⟩
    have hne : (boolText b).toList ≠ [] := by cases b <;> simp [boolText]
    exact restorable_of_plain (ofToken_bool b) hne (isPlain_boolText b)
  | sym symbol =>
    cases symbol with
    | operator op =>
      refine ⟨fun _ => ?_, fun _ => trivial⟩
      have hne : op.text.toList ≠ [] := by cases op <;> simp [Operator.text]
      exact restorable_of_plain (ofToken_operator op) hne (isPlain_operator op)
    | name text => exact isName_iff

end PrefixCalc
