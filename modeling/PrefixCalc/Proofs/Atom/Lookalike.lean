import PrefixCalc.Proofs.Atom.Numeral
import PrefixCalc.Proofs.Atom.Readable

/-!
# PrefixCalc.Proofs.Atom.Lookalike

From tokens to atoms and back.

* `lookalike_iff`: the lookalikes are the texts that are read as something else than names.
* `ofToken_text`: a token is never lost in its atom, and an atom comes back from its text unless it
  is a name with the text of something else.
-/

namespace PrefixCalc

theorem Token.isString_iff_quotes {token : Token} :
    token.isString = true ↔
      2 ≤ token.length ∧ token.toList.head? = some '"' ∧ token.toList.getLast? = some '"' := by
  rw [← String.length_toList]
  unfold isString
  split
  · rename_i rest heq
    rw [heq, beq_iff_eq]
    cases rest with
    | nil => simp
    | cons c rest => simp
  · rename_i hne
    constructor
    · intro h
      cases h
    · rintro ⟨-, hhead, -⟩
      obtain ⟨rest, hrest⟩ := List.head?_eq_some_iff.mp hhead
      exact absurd hrest (hne rest)

theorem lookalike_iff {text : String} :
    Lookalike text ↔
      Token.isInteger text = true ∨ Token.isString text = true ∨ Token.isBoolean text = true ∨
        Operator.ofText? text ≠ none := by
  have hop : Operator.ofText? text ≠ none ↔ ∃ op : Operator, text = op.text := by
    simp only [Option.ne_none_iff_exists', Operator.ofText?_eq_some_iff]
  rw [hop, Token.isInteger_iff, Token.isString_iff_quotes]
  simp only [Lookalike, Token.isBoolean, Bool.or_eq_true, beq_iff_eq, or_assoc]

namespace Atom

theorem ofToken_name_iff {text : String} :
    ofToken (sym (.name text)).text = .ok (.sym (.name text)) ↔ ¬ Lookalike text := by
  show ofToken text = _ ↔ _
  rw [ofToken_eq_name_iff, lookalike_iff]
  simp

/-- Every token stands for an atom that is written as this token, so no two tokens stand for the same
one. The text of an atom stands for the atom itself exactly if the atom is no name that looks like an
integer, a string, a boolean or an operator. -/
theorem ofToken_text :
    (∀ token, ∃ leaf, ofToken token = .ok leaf ∧ leaf.text = token) ∧
    Function.Injective ofToken ∧
    ∀ leaf, ofToken leaf.text = .ok leaf ↔
      ¬ ∃ text, leaf = .sym (.name text) ∧ Lookalike text := by
  refine ⟨exists_ofToken, ?_, ?_⟩
  · intro token token' h
    obtain ⟨leaf, hleaf, rfl⟩ := exists_ofToken token
    exact text_of_ofToken (h.symm.trans hleaf)
  · intro leaf
    cases leaf with
    | int n => simp [ofToken_int]
    | str content => simp [ofToken_str]
    | bool b => simp [ofToken_bool]
    | sym symbol =>
      cases symbol with
      | operator op => simp [ofToken_operator]
      | name text => simp [ofToken_name_iff]

end Atom
end PrefixCalc
