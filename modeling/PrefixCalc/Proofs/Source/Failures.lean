import PrefixCalc.Proofs.Eval.Defects
import PrefixCalc.Proofs.Eval.Limit
import PrefixCalc.Proofs.Sexp.Limit
import PrefixCalc.Proofs.Sexp.RoundTrip
import PrefixCalc.Proofs.Source.Stages

/-!
# PrefixCalc.Proofs.Source.Failures

What a run fails of. Reading and evaluation count lists in different ways, but what has been read
within a limit is never too deep for evaluation within the same one, so that the limit of a run
matters only to its reading (`value_threshold`). A source that has been read is readable, too, so each
error of evaluation is about a list of its program that shows it (`value_defect`).
-/

namespace PrefixCalc

/-! ## The nesting limit -/

namespace Source

theorem value_persists (source : String) :
    Persists (fun limit => .read (.nestingTooDeep limit)) fun limit => value limit source := by
  intro m n hmn
  rcases Program.ofText_persists source m n hmn with h | h
  · exact .inl (value_of_ofText_error h)
  · right
    show value n source = value m source
    cases hm : Program.ofText m source with
    | error e => rw [value_of_ofText_error hm, value_of_ofText_error (h.trans hm)]
    | ok p =>
      rw [value_of_ofText_ok hm, value_of_ofText_ok (h.trans hm),
        Program.eval_eq_of_depth_le (Program.depth_le_of_ofText hm) hmn]

/-- What has been read is not too deep for evaluation. -/
theorem value_ne_eval_tooDeep (limit n : Nat) (source : String) :
    value limit source ≠ .error (.eval (.nestingTooDeep n)) := by
  intro h
  rcases value_eq_error_iff.mp h with ⟨e, -, he⟩ | ⟨p, e, hp, hv, he⟩
  · cases he
  · cases he
    exact Program.eval_ne_tooDeep (Program.depth_le_of_ofText hp) hv

theorem value_ne_read_tooDeep {limit n : Nat} {source : String}
    (hle : Nesting.ofText source ≤ limit) :
    value limit source ≠ .error (.read (.nestingTooDeep n)) := by
  intro h
  rcases value_eq_error_iff.mp h with ⟨e, hp, he⟩ | ⟨p, e, -, -, he⟩
  · cases he
    exact Program.ofText_ne_tooDeep hle hp
  · cases he

/-- The limit is a threshold. Below it a source nests too deep to be read; from it on the limit makes
no difference and is never what is wrong. It is no higher than the parentheses of the source nest,
and evaluation never comes to it. -/
theorem value_threshold (source : String) :
    (∃ t ≤ Nesting.ofText source, ∃ result : Except Failure Value,
      (∀ m < t, value m source = .error (.read (.nestingTooDeep m))) ∧
      (∀ m, t ≤ m → value m source = result) ∧
      ∀ n, result ≠ .error (.read (.nestingTooDeep n)) ∧
        result ≠ .error (.eval (.nestingTooDeep n))) ∧
    ∀ limit n, value limit source ≠ .error (.eval (.nestingTooDeep n)) := by
  obtain ⟨t, hle, hbelow, habove⟩ :=
    (value_persists source).exists_threshold (value_ne_read_tooDeep (Nat.le_refl _))
  refine ⟨⟨t, hle, value (Nesting.ofText source) source, hbelow, habove, fun n => ⟨?_, ?_⟩⟩, ?_⟩
  · exact value_ne_read_tooDeep (Nat.le_refl _)
  · exact value_ne_eval_tooDeep _ n source
  · exact fun limit n => value_ne_eval_tooDeep limit n source

/-- Here the threshold is two: the limit one is too low, and no limit is behind two. -/
theorem value_threshold_two :
    value 0 "(+ (*))" = .error (.read (.nestingTooDeep 0)) ∧
      value 1000 "(+ (*))" = value 2 "(+ (*))" := by
  obtain ⟨⟨t, hle, result, hbelow, habove, hne⟩, -⟩ := value_threshold "(+ (*))"
  have htwo : Nesting.ofText "(+ (*))" = 2 := by decide
  have htokens : Token.ofText "(+ (*))" = .ok ["(", "+", "(", "*", ")", ")"] := rfl
  have hone : value 1 "(+ (*))" = .error (.read (.nestingTooDeep 1)) :=
    value_of_ofText_error (Program.ofText_of_error? htokens (by decide))
  have ht : t = 2 := by
    by_contra hlt
    have h : t ≤ 1 := by omega
    exact (hne 1).1 ((habove 1 h).symm.trans hone)
  subst ht
  exact ⟨hbelow 0 (by decide), (habove 1000 (by decide)).trans (habove 2 (by decide)).symm⟩

/-! ## Defects -/

/-- If the evaluation of a source fails, there is a list in its program with the defect that the
error tells of: it is empty, its head has not the text of any operator, it is a difference or a
quotient and has not two arguments, an atom that is no integer is written as an argument of its
operator, or it is a quotient of two arguments. -/
theorem value_defect {limit : Nat} {source : String} {e : EvalError}
    (h : value limit source = .error (.eval e)) :
    ∃ p, program limit source = .ok p ∧ ∃ items ∈ Sexp.listsAll p, Defect items e := by
  have hdeep : ∀ n, e ≠ .nestingTooDeep n := by
    rintro n rfl
    exact value_ne_eval_tooDeep limit n source h
  rcases value_eq_error_iff.mp h with ⟨e', -, he⟩ | ⟨p, e', hp, hv, he⟩
  · cases he
  · cases he
    have hreadable := (Program.readable_of_ofText hp).2
    exact ⟨p, program_eq_ok_iff.mpr hp, Program.exists_defect hreadable hdeep hv⟩

/-- The literal is an argument of the product, and the sum around it is not to blame. -/
theorem value_defect_literal :
    value 2 "(+ (* 2 \"2\") (-) ())" = .error (.eval (.notInteger (.atom (.str "2")))) ∧
      ∃ p, program 2 "(+ (* 2 \"2\") (-) ())" = .ok p ∧
        ∃ items ∈ Sexp.listsAll p, Defect items (.notInteger (.atom (.str "2"))) := by
  let p : Program := [.list [.atom (.sym (.operator .add)),
    .list [.atom (.sym (.operator .mul)), .atom (.int 2), .atom (.str "2")],
    .list [.atom (.sym (.operator .sub))], .list []]]
  have hp : Program.ofText 2 "(+ (* 2 \"2\") (-) ())" = .ok p :=
    Program.ofText_iff_fits.mpr ⟨by decide, rfl⟩
  have h : value 2 "(+ (* 2 \"2\") (-) ())" = .error (.eval (.notInteger (.atom (.str "2")))) :=
    value_of_eval_error hp rfl
  exact ⟨h, value_defect h⟩

end Source
end PrefixCalc
