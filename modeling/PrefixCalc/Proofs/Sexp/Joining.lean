import PrefixCalc.Proofs.Sexp.Nesting
import PrefixCalc.Proofs.Sexp.Tokens
import PrefixCalc.Proofs.Token.Joining

/-!
# PrefixCalc.Proofs.Sexp.Joining

Programs one behind the other. Behind a program no list is open, so that what follows is read as it
is by itself, and only the errors name other places.

* `Nesting.error?_append`, `Nesting.error?_shift`: the walk over the parentheses.
* `Program.ofTokens_append`: reading the tokens of a program and more behind them.
* `Program.ofText_gap`: reading the text of a program and more behind a gap.
-/

namespace PrefixCalc

/-- The error where so many characters and tokens stand in front of the text. -/
def ReadError.shift (characters tokens : Nat) : ReadError → ReadError
  | .scan e => .scan (e.shift characters)
  | .literal e => .literal e
  | .unclosedExpression opened => .unclosedExpression (tokens + opened)
  | .unmatchedClose index => .unmatchedClose (tokens + index)
  | .nestingTooDeep limit => .nestingTooDeep limit

theorem ReadError.shift_zero (e : ReadError) : e.shift 0 0 = e := by
  cases e with
  | scan e =>
    cases e
    simp [shift, ScanError.shift]
  | _ => simp [shift]

theorem ReadError.shift_shift (e : ReadError) (characters characters' tokens tokens' : Nat) :
    (e.shift characters' tokens').shift characters tokens =
      e.shift (characters + characters') (tokens + tokens') := by
  cases e with
  | scan e =>
    cases e
    simp [shift, ScanError.shift, Nat.add_assoc]
  | _ => simp [shift, Nat.add_assoc]

namespace Nesting

variable {limit : Nat} {opened : List Nat}

theorem error?_append {front : List Place} (h : error? limit opened front = none)
    (back : List Place) : error? limit opened (front ++ back) = error? limit [] back := by
  fun_induction error? limit opened front with
  | case1 => rfl
  | case2 o outer => cases h
  | case3 opened index rest hl => cases h
  | case4 opened index rest hl ih =>
    rw [List.cons_append, error?_opening, if_neg hl]
    exact ih h
  | case5 index rest => cases h
  | case6 index rest o outer _ ih =>
    rw [List.cons_append, error?_closing_cons]
    exact ih h
  | case7 opened token index rest ho hc ih =>
    rw [List.cons_append, error?_other ho hc]
    exact ih h

/-- The walk takes no part in what the indices are. -/
theorem error?_shift (characters k : Nat) (places : List Place) :
    error? limit (opened.map (k + ·)) (places.map (Prod.map id (k + ·))) =
      (error? limit opened places).map (ReadError.shift characters k) := by
  fun_induction error? limit opened places with
  | case1 => rfl
  | case2 o outer => rfl
  | case3 opened index rest hl =>
    rw [List.map_cons, Prod.map_apply, id_eq, error?_opening, List.length_map, if_pos hl]
    rfl
  | case4 opened index rest hl ih =>
    rw [List.map_cons, Prod.map_apply, id_eq, error?_opening, List.length_map, if_neg hl]
    exact ih
  | case5 index rest => exact error?_closing_nil
  | case6 index rest o outer _ ih =>
    rw [List.map_cons, List.map_cons, Prod.map_apply, id_eq, error?_closing_cons]
    exact ih
  | case7 opened token index rest ho hc ih =>
    rw [List.map_cons, Prod.map_apply, id_eq, error?_other ho hc]
    exact ih

theorem error?_zipIdx (characters k : Nat) (tokens : List Token) :
    error? limit [] (tokens.zipIdx k) =
      (error? limit [] tokens.zipIdx).map (ReadError.shift characters k) := by
  rw [← error?_shift, List.zipIdx_eq_map_add]
  rfl

end Nesting

theorem Sexp.Fits.append {limit depth : Nat} {front back : List Sexp}
    (hf : Fits limit depth front) (hb : Fits limit depth back) :
    Fits limit depth (front ++ back) := by
  induction front with
  | nil => exact hb
  | cons x front ih =>
    obtain ⟨hx, hfront⟩ := fits_cons.mp hf
    exact fits_cons.mpr ⟨hx, ih hfront⟩

namespace Program

variable {limit : Nat} {program : Program}

theorem ofTokens_append {front : List Token} (hf : ofTokens limit front = .ok program)
    (characters : Nat) (back : List Token) :
    ofTokens limit (front ++ back) =
      match ofTokens limit back with
      | .error e => .error (e.shift characters front.length)
      | .ok program' => .ok (program ++ program') := by
  cases hb : ofTokens limit back with
  | error e =>
    have hfront := Nesting.exists_ofTokens_iff.mp ⟨program, hf⟩
    have hback := Nesting.ofTokens_eq_error_iff.mp hb
    show ofTokens limit (front ++ back) = .error (e.shift characters front.length)
    rw [Nesting.ofTokens_eq_error_iff, List.zipIdx_append, Nesting.error?_append hfront,
      Nesting.error?_zipIdx characters, hback, Nat.zero_add, Option.map_some]
  | ok program' =>
    obtain ⟨hfits, rfl⟩ := ofTokens_iff_fits.mp hf
    obtain ⟨hfits', rfl⟩ := ofTokens_iff_fits.mp hb
    exact ofTokens_iff_fits.mpr ⟨hfits.append hfits', (Sexp.tokensAll_append ..).symm⟩

theorem ofText_gap {front gap : String} {tokens : List Token}
    (ht : Token.ofText front = .ok tokens) (hp : ofTokens limit tokens = .ok program)
    (hg : IsGap gap.toList) (hne : gap ≠ "") (back : String) :
    ofText limit (front ++ gap ++ back) =
      match ofText limit back with
      | .error e => .error (e.shift (front ++ gap).length tokens.length)
      | .ok program' => .ok (program ++ program') := by
  unfold ofText
  rw [PrefixCalc.ofText_gap ht hg hne]
  cases Token.ofText back with
  | error e => rfl
  | ok tokens' => exact ofTokens_append hp _ tokens'

end Program
end PrefixCalc
