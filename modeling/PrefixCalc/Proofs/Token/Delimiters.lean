import PrefixCalc.Proofs.Token.Joining
import PrefixCalc.Proofs.Token.Quotes

/-!
# PrefixCalc.Proofs.Token.Delimiters

Texts that go on. Behind a delimiter the rest of a text is scanned by itself, and behind a quote that
has no partner on its line nothing matters any more.

* `unclosed?_append`: such a quote is not closed by what stands behind its line.
* `ofText_delimited`: both, for texts and their tokens.
-/

namespace PrefixCalc
namespace Quotes

theorem unclosed?_append {q : Nat} (cs front back : List Char) (opened : Option Nat)
    (h : IsOpen front opened)
    (hq : unclosed? opened front.length cs = some q) (hn : '\n' ∈ (front ++ cs).drop (q + 1)) :
    unclosed? opened front.length (cs ++ back) = some q := by
  -- As long as no newline stands behind the open quote, there is more of the text to come, and the
  -- walk goes on over it as it does without the back.
  induction cs generalizing front opened with
  | nil =>
    obtain rfl : opened = some q := hq
    rw [List.append_nil, ← List.drop_drop] at hn
    exact absurd (List.mem_of_mem_drop hn) h.2
  | cons c cs ih =>
    have ih' := ih (front ++ [c])
    rw [List.append_assoc, List.singleton_append, List.length_append, List.length_singleton] at ih'
    rw [List.cons_append]
    cases opened with
    | none =>
      by_cases hc : c = '"'
      · subst hc
        rw [unclosed?_open] at hq ⊢
        exact ih' (some front.length) isOpen_quote hq hn
      · rw [unclosed?_outside hc] at hq ⊢
        exact ih' none trivial hq hn
    | some p =>
      rcases content_cases c with rfl | rfl | hc
      · rw [unclosed?_close] at hq ⊢
        exact ih' none trivial hq hn
      · rw [unclosed?_newline] at hq ⊢
        exact hq
      · rw [unclosed?_content hc] at hq ⊢
        exact ih' (some p) (h.content hc) hq hn

end Quotes

/-- If the front of a text has tokens, a delimiter behind it splits the text: the tokens are those of
the front, the delimiter if it is a parenthesis, and those of the back; and an error of the back is
the error of the text, at its place there. If the front has none because of a quote that a newline
stands behind, then no text that begins with this front has any, because of the same quote. -/
theorem ofText_delimited (front : String) :
    (∀ (tokens : List Token) (d : Char), Token.ofText front = .ok tokens → IsDelimiter d →
      (∀ (back : String) (tokens' : List Token), Token.ofText back = .ok tokens' →
        Token.ofText (front ++ String.singleton d ++ back) =
          .ok (tokens ++ delimiterTokens d ++ tokens')) ∧
      ∀ (back : String) (k : Nat), Token.ofText back = .error (.unclosedString k) →
        Token.ofText (front ++ String.singleton d ++ back) =
          .error (.unclosedString (k + front.length + 1))) ∧
    ∀ k, Token.ofText front = .error (.unclosedString k) → '\n' ∈ front.toList.drop (k + 1) →
      ∀ back, Token.ofText (front ++ back) = .error (.unclosedString k) := by
  constructor
  · intro tokens d hf hd
    constructor
    · intro back tokens' hb
      simp only [ofText_delimiter hf hd, hb]
    · intro back k hb
      have hk : front.length + 1 + k = k + front.length + 1 := by omega
      simp only [ofText_delimiter hf hd, hb, ScanError.shift, hk]
  · intro k hf hn back
    rw [ofText_eq_error_iff] at hf ⊢
    rw [String.toList_append]
    exact Quotes.unclosed?_append front.toList [] back.toList none trivial hf hn

/-- The front ends in a literal that holds a parenthesis, and has two bytes in its first character. In
the last text a quote behind the newline does not help. -/
theorem ofText_delimited_literal :
    Token.ofText "λ\"(\")é" = .ok ["λ\"(\"", ")", "é"] ∧
      Token.ofText "λ\"(\")é\"x" = .error (.unclosedString 6) ∧
      Token.ofText "b \"c\nd\"" = .error (.unclosedString 2) := by
  have hfront : Token.ofText "λ\"(\"" = .ok ["λ\"(\""] := by rfl
  have hok : Token.ofText "é" = .ok ["é"] := by rfl
  have herror : Token.ofText "é\"x" = .error (.unclosedString 1) := by rfl
  have hnewline : Token.ofText "b \"c\nd" = .error (.unclosedString 2) := by rfl
  obtain ⟨hsplit, hshift⟩ := (ofText_delimited "λ\"(\"").1 _ ')' hfront (.inr (.inr rfl))
  exact ⟨hsplit "é" _ hok, hshift "é\"x" 1 herror,
    (ofText_delimited "b \"c\nd").2 2 hnewline (by decide) "\""⟩

end PrefixCalc
