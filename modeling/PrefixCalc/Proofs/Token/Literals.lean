import PrefixCalc.Proofs.Atom.Readable
import PrefixCalc.Proofs.Token.Invariant
import PrefixCalc.Proofs.Token.Joining

/-!
# PrefixCalc.Proofs.Token.Literals

A string literal in a text. What stands between its quotes is not looked at: the literal is a token of
its own or the end of the word in front of it, and all around it is scanned by itself.

* `mode_eq_gap_iff`: the character in front tells which of the two.
* `ofText_around`: the tokens of a text with a literal in it.
* `ofText_literal`: both, and the atom that the literal is read as.
-/

namespace PrefixCalc

/-- A string literal with this content. -/
def Token.literal (content : String) : Token :=
  "\"" ++ content ++ "\""

theorem Token.toList_literal (content : String) :
    (literal content).toList = quotedChars content.toList :=
  toList_text_str content

/-- Nothing behind the text belongs to a token in it: it is empty, or it ends in a delimiter or in a
quote. -/
def EndsToken (text : String) : Prop :=
  ∀ c ∈ text.toList.getLast?, IsDelimiter c ∨ c = '"'

theorem isPlain_eq_false_iff {c : Char} : isPlain c = false ↔ IsDelimiter c ∨ c = '"' := by
  rw [← Bool.not_eq_true, isPlain_iff]
  unfold IsDelimiter
  cases isBlank c <;> grind

namespace Scanner

/-! ## What stands in front -/

theorem mode_of_advance {s s' : Scanner} {c : Char} (h : s.advance c = .ok s')
    (hm' : s'.mode.Unquoted) : s'.mode = .gap ↔ isPlain c = false := by
  cases moves_of_advance h with
  | blank hm hc => exact iff_of_true rfl (isPlain_eq_false_iff.mpr (.inl (.inl hc)))
  | paren hm hc => exact iff_of_true rfl (isPlain_eq_false_iff.mpr (.inl (.inr hc)))
  | plain hm hc => exact iff_of_false (by simp) (by simp [hc])
  | closing hm => exact iff_of_true rfl (isPlain_eq_false_iff.mpr (.inr rfl))
  | opening hm => exact hm'.elim
  | content hm hc => exact hm'.elim

/-- At the end of a text that has tokens, the scanner is in a word only behind a plain character. -/
theorem mode_eq_gap_iff {s : Scanner} {text : String} (h : initial.read text.toList = .ok s)
    (hm : s.mode.Unquoted) : s.mode = .gap ↔ EndsToken text := by
  unfold EndsToken
  simp only [← isPlain_eq_false_iff]
  generalize text.toList = cs at h
  rcases List.eq_nil_or_concat cs with rfl | ⟨front, c, rfl⟩
  · cases h
    simp [initial]
  · rw [List.concat_eq_append, read_append] at h
    split at h
    · cases h
    · rename_i s₁ _
      simp only [read] at h
      split at h
      · cases h
      · rename_i s₂ ha
        cases h
        rw [mode_of_advance ha hm]
        simp

/-! ## Around a literal -/

/-- A literal completes the token that it stands in. -/
theorem ofText_around {front back content : String} {s : Scanner} {tokens : List Token}
    (hs : initial.read front.toList = .ok s) (hm : s.mode.Unquoted)
    (hc : ∀ c ∈ content.toList, isContent c = true) (hb : Token.ofText back = .ok tokens) :
    Token.ofText (front ++ Token.literal content ++ back) =
      .ok (s.found.reverse.map Lexeme.text ++
        [String.ofList s.pending ++ Token.literal content] ++ tokens) := by
  obtain ⟨s', token, hs', hm', htext, hfound⟩ := read_quoted hc hm
  have hread : initial.read (front ++ Token.literal content).toList = .ok s' := by
    rw [String.toList_append, read_append_of_ok hs, Token.toList_literal, hs']
  have htoken : token.text = String.ofList s.pending ++ Token.literal content := by
    apply String.toList_injective
    rw [htext, String.toList_append, String.toList_ofList, Token.toList_literal]
  simp only [ofText_append_of_gap hread hm', hb, hfound]
  simp [htoken]

end Scanner

section
variable {front back : String} {tokens tokens' : List Token}

theorem ofText_literal_alone (hf : Token.ofText front = .ok tokens)
    (hb : Token.ofText back = .ok tokens') (hfront : EndsToken front) {content : String}
    (hc : ∀ c ∈ content.toList, isContent c = true) :
    Token.ofText (front ++ Token.literal content ++ back) =
      .ok (tokens ++ [Token.literal content] ++ tokens') := by
  obtain ⟨s, hs, hm, rfl⟩ := Scanner.ofText_eq_ok_iff.mp hf
  have hgap : s.mode = .gap := (Scanner.mode_eq_gap_iff hs hm).mpr hfront
  rw [Scanner.ofText_around hs hm hc hb, Scanner.ended_gap hgap, Scanner.pending_gap hgap,
    String.ofList_nil, String.empty_append]

/-- Behind a plain character the literal belongs to the last token, which is a word. -/
theorem ofText_literal_glued (hf : Token.ofText front = .ok tokens)
    (hb : Token.ofText back = .ok tokens') (hfront : ¬ EndsToken front) :
    ∃ others word, tokens = others ++ [word] ∧ word.toList ≠ [] ∧
      (∀ c ∈ word.toList, isPlain c = true) ∧
      ∀ content : String, (∀ c ∈ content.toList, isContent c = true) →
        Token.ofText (front ++ Token.literal content ++ back) =
          .ok (others ++ [word ++ Token.literal content] ++ tokens') := by
  obtain ⟨s, hs, hm, rfl⟩ := Scanner.ofText_eq_ok_iff.mp hf
  have hproper := (Scanner.reads_initial.read hs).1
  cases hmode : s.mode with
  | gap => exact absurd ((Scanner.mode_eq_gap_iff hs hm).mp hmode) hfront
  | word token =>
    rw [hmode] at hproper
    refine ⟨s.found.reverse.map Lexeme.text, token.text, ?_, hproper.1, hproper.2, ?_⟩
    · rw [Scanner.ended_word hmode]
      simp
    · intro content hc
      rw [Scanner.ofText_around hs hm hc hb, Scanner.pending_word hmode, String.ofList_toList]
  | quoted token quote =>
    rw [hmode] at hm
    exact hm.elim

theorem ofToken_glued {word : Token} (hne : word.toList ≠ [])
    (hw : ∀ c ∈ word.toList, isPlain c = true) (content : String) :
    Atom.ofToken (word ++ Token.literal content) =
      .ok (.sym (.name (word ++ Token.literal content))) := by
  apply ofToken_of_quote
  · simp [Token.literal, String.toList_append]
  · obtain ⟨c, cs, hcs⟩ := List.exists_cons_of_ne_nil hne
    have hplain : isPlain c = true := hw c (by simp [hcs])
    have hhead : (word ++ Token.literal content).toList.head? = some c := by
      simp [String.toList_append, hcs]
    exact isString_of_head hhead (isPlain_iff.mp hplain).2.2.2

/-- A string literal between two texts that have tokens. If what stands in front is empty or ends in
a delimiter or a quote, then the literal is a token of its own, and is read as the string that it
holds. Otherwise it is the end of the last token in front, and the two together are read as a name. So
the content matters for one token only. -/
theorem ofText_literal (hf : Token.ofText front = .ok tokens)
    (hb : Token.ofText back = .ok tokens') :
    (EndsToken front → ∀ content : String, (∀ c ∈ content.toList, isContent c = true) →
      Token.ofText (front ++ Token.literal content ++ back) =
          .ok (tokens ++ [Token.literal content] ++ tokens') ∧
        Atom.ofToken (Token.literal content) = .ok (.str content)) ∧
    (¬ EndsToken front → ∃ others word, tokens = others ++ [word] ∧
      ∀ content : String, (∀ c ∈ content.toList, isContent c = true) →
        Token.ofText (front ++ Token.literal content ++ back) =
            .ok (others ++ [word ++ Token.literal content] ++ tokens') ∧
          Atom.ofToken (word ++ Token.literal content) =
            .ok (.sym (.name (word ++ Token.literal content)))) ∧
    ∃ others word, ∀ content : String, (∀ c ∈ content.toList, isContent c = true) →
      Token.ofText (front ++ Token.literal content ++ back) =
        .ok (others ++ [word ++ Token.literal content] ++ tokens') := by
  refine ⟨?_, ?_, ?_⟩
  · intro hfront content hc
    exact ⟨ofText_literal_alone hf hb hfront hc, ofToken_str content⟩
  · intro hfront
    obtain ⟨others, word, ht, hne, hw, hglued⟩ := ofText_literal_glued hf hb hfront
    exact ⟨others, word, ht, fun content hc => ⟨hglued content hc, ofToken_glued hne hw content⟩⟩
  · by_cases hfront : EndsToken front
    · refine ⟨tokens, "", fun content hc => ?_⟩
      rw [ofText_literal_alone hf hb hfront hc, String.empty_append]
    · obtain ⟨others, word, -, -, -, hglued⟩ := ofText_literal_glued hf hb hfront
      exact ⟨others, word, hglued⟩

end

/-- The content looks like a token and a parenthesis, and a backslash does not escape the quote. A
blank in front makes the difference. -/
theorem ofText_literal_backslash :
    Token.ofText "(ab \"1)\\\"c" = .ok ["(", "ab", "\"1)\\\"", "c"] ∧
      Atom.ofToken "\"1)\\\"" = .ok (.str "1)\\") ∧
      Token.ofText "(ab\"1)\\\"c" = .ok ["(", "ab\"1)\\\"", "c"] ∧
      Atom.ofToken "ab\"1)\\\"" = .ok (.sym (.name "ab\"1)\\\"")) := by
  have hback : Token.ofText "c" = .ok ["c"] := by rfl
  have hspaced : Token.ofText "(ab " = .ok ["(", "ab"] := by rfl
  have hword : Token.ofText "(ab" = .ok ["(", "ab"] := by rfl
  have hc : ∀ c ∈ "1)\\".toList, isContent c = true := List.all_eq_true.mp rfl
  have hends : EndsToken "(ab " := by
    intro c hlast
    obtain rfl : ' ' = c := Option.some.inj hlast
    exact .inl (.inl (by decide))
  have hplain : ¬ EndsToken "(ab" := fun h =>
    absurd (isPlain_eq_false_iff.mpr (h 'b' rfl)) (by decide)
  obtain ⟨hown, hstring⟩ := (ofText_literal hspaced hback).1 hends "1)\\" hc
  obtain ⟨others, word, ht, hglued⟩ := (ofText_literal hword hback).2.1 hplain
  have hlast : ["("] ++ ["ab"] = others ++ [word] := ht
  obtain ⟨rfl, hw⟩ := List.append_inj' hlast rfl
  cases hw
  obtain ⟨htokens, hname⟩ := hglued "1)\\" hc
  exact ⟨hown, hstring, htokens, hname⟩

end PrefixCalc
