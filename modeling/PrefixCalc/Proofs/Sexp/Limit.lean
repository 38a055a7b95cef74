import PrefixCalc.Proofs.Limit
import PrefixCalc.Proofs.Sexp.Nesting
import PrefixCalc.Proofs.Sexp.RoundTrip
import PrefixCalc.Proofs.Sexp.Tokens

/-!
# PrefixCalc.Proofs.Sexp.Limit

The nesting limit of reading.

* `Program.ofText_persists`: the limit matters only where it is too low.
* `Program.ofText_ne_tooDeep`: it is not too low for a text that nests no deeper.
* `Program.ofText_text_of_lt_depth`: it is too low for the text of a program that nests deeper.
-/

namespace PrefixCalc
namespace Nesting

theorem error?_persists {m n : Nat} (hmn : m ≤ n) (opened : List Nat) (places : List Place) :
    error? m opened places = some (.nestingTooDeep m) ∨
      error? n opened places = error? m opened places := by
  fun_induction error? m opened places with
  | case1 => exact .inr rfl
  | case2 o outer => exact .inr rfl
  | case3 opened index rest hl => exact .inl rfl
  | case4 opened index rest hl ih =>
    rw [error?_opening, if_neg (by omega)]
    exact ih
  | case5 index rest => exact .inr error?_closing_nil
  | case6 index rest o outer _ ih =>
    rw [error?_closing_cons]
    exact ih
  | case7 opened token index rest ho hc ih =>
    rw [error?_other ho hc]
    exact ih

section
variable {opened : Nat} {token : Token} {tokens : List Token}

theorem deepest_opening :
    deepest opened (Token.opening :: tokens) = deepest (opened + 1) tokens := by
  simp [deepest]

theorem deepest_closing :
    deepest opened (Token.closing :: tokens) = max opened (deepest (opened - 1) tokens) := by
  simp [deepest, Token.opening, Token.closing]

theorem deepest_other (ho : token ≠ Token.opening) (hc : token ≠ Token.closing) :
    deepest opened (token :: tokens) = deepest opened tokens := by
  simp [deepest, ho, hc]

end

theorem le_deepest (opened : Nat) (tokens : List Token) : opened ≤ deepest opened tokens := by
  fun_induction deepest opened tokens with
  | case1 opened => exact Nat.le_refl _
  | case2 opened rest ih => omega
  | case3 opened rest ho ih => exact Nat.le_max_left ..
  | case4 opened token rest ho hc ih => exact ih

theorem lt_deepest_of_error? {limit n : Nat} {opened : List Nat} {places : List Place}
    (h : error? limit opened places = some (.nestingTooDeep n)) :
    limit < deepest opened.length (places.map Prod.fst) := by
  fun_induction error? limit opened places with
  | case1 => cases h
  | case2 o outer => cases h
  | case3 opened index rest hl =>
    have hle := le_deepest (opened.length + 1) (rest.map Prod.fst)
    rw [List.map_cons, deepest_opening]
    omega
  | case4 opened index rest hl ih =>
    rw [List.map_cons, deepest_opening]
    exact ih h
  | case5 index rest => cases h
  | case6 index rest o outer _ ih =>
    have hlt := ih h
    rw [List.map_cons, deepest_closing, List.length_cons, Nat.add_sub_cancel]
    omega
  | case7 opened token index rest ho hc ih =>
    rw [List.map_cons, deepest_other ho hc]
    exact ih h

end Nesting

theorem Sexp.Fits.mono {m n depth : Nat} {items : List Sexp} (h : Fits m depth items)
    (hmn : m ≤ n) : Fits n depth items :=
  ⟨by have := h.depth_le; omega, h.restorable⟩

namespace Program

theorem ofTokens_persists (tokens : List Token) :
    Persists ReadError.nestingTooDeep fun limit => ofTokens limit tokens := by
  intro m n hmn
  rcases Nesting.error?_persists hmn [] tokens.zipIdx with h | h
  · exact .inl (Nesting.ofTokens_eq_error_iff.mpr h)
  · right
    show ofTokens n tokens = ofTokens m tokens
    cases hm : ofTokens m tokens with
    | error e =>
      rw [Nesting.ofTokens_eq_error_iff] at hm ⊢
      rw [h, hm]
    | ok program =>
      obtain ⟨hfits, ht⟩ := ofTokens_iff_fits.mp hm
      exact ofTokens_iff_fits.mpr ⟨hfits.mono hmn, ht⟩

theorem ofTokens_ne_tooDeep {limit n : Nat} {tokens : List Token}
    (h : Nesting.deepest 0 tokens ≤ limit) :
    ofTokens limit tokens ≠ .error (.nestingTooDeep n) := by
  intro he
  have hlt := Nesting.lt_deepest_of_error? (Nesting.ofTokens_eq_error_iff.mp he)
  rw [List.zipIdx_map_fst, List.length_nil] at hlt
  omega

theorem ofText_persists (text : String) :
    Persists ReadError.nestingTooDeep fun limit => ofText limit text := by
  unfold ofText
  cases Token.ofText text with
  | error e => exact .const _
  | ok tokens => exact ofTokens_persists tokens

theorem ofText_ne_tooDeep {limit n : Nat} {text : String} (h : Nesting.ofText text ≤ limit) :
    ofText limit text ≠ .error (.nestingTooDeep n) := by
  unfold ofText
  unfold Nesting.ofText at h
  cases ht : Token.ofText text with
  | error e => simp
  | ok tokens =>
    rw [ht] at h
    exact ofTokens_ne_tooDeep h

theorem depth_le_of_ofText {limit : Nat} {text : String} {program : Program}
    (h : ofText limit text = .ok program) : program.depth ≤ limit :=
  (ofText_iff_fits.mp h).1.depth_le

theorem ofText_text_of_lt_depth {limit : Nat} {program : Program} (hr : program.Readable)
    (hdepth : limit < program.depth) :
    ofText limit program.text = .error (.nestingTooDeep limit) := by
  rcases ofText_persists program.text limit program.depth (Nat.le_of_lt hdepth) with h | h
  · exact h
  · have hread := h.symm.trans (ofText_of_readable (Nat.le_refl _) hr)
    exact absurd (depth_le_of_ofText hread) (Nat.not_le.mpr hdepth)

end Program
end PrefixCalc
