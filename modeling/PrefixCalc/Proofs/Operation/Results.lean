import PrefixCalc.Proofs.Operation.Exact
import PrefixCalc.Proofs.Operation.Failures

/-!
# PrefixCalc.Proofs.Operation.Results

What an operator gives for any values, and what a call gives that looks at their number first.

* `compute_toInt`: for integers the result is the exact one, reduced.
* `apply_eq_iff_gives`: an operator ends in one of the ways that `Gives` lists.
* `call_ne_apply_iff`: a call under the operator's own arity differs from it in one case only.
-/

namespace PrefixCalc
namespace Value

theorem exists_ofIntegers {values : List Value} (h : ∀ v ∈ values, v.int? ≠ none) :
    ∃ ns, values = ofIntegers ns := by
  induction values with
  | nil => exact ⟨[], rfl⟩
  | cons v values ih =>
    obtain ⟨hv, hvalues⟩ := List.forall_mem_cons.mp h
    obtain ⟨n, hn⟩ := Option.ne_none_iff_exists'.mp hv
    obtain ⟨ns, rfl⟩ := ih hvalues
    obtain rfl := int?_eq_some_iff.mp hn
    exact ⟨n :: ns, rfl⟩

/-- The error of values is about the first that is no integer. -/
theorem integers_eq_error_iff_first {values : List Value} {e : EvalError} :
    integers values = .error e ↔
      ∃ ns v behind, values = ofIntegers ns ++ v :: behind ∧ v.int? = none ∧ e = .notInteger v := by
  rw [integers_eq_error_iff]
  constructor
  · rintro ⟨v, hfind, rfl⟩
    obtain ⟨hv, front, behind, rfl, hfront⟩ := List.find?_eq_some_iff_append.mp hfind
    obtain ⟨ns, rfl⟩ := exists_ofIntegers fun u hu => by simpa using hfront u hu
    exact ⟨ns, v, behind, rfl, by simpa using hv, rfl⟩
  · rintro ⟨ns, v, behind, rfl, hv, rfl⟩
    refine ⟨v, ?_, rfl⟩
    rw [List.find?_append, find?_integers]
    simp [hv]

end Value

namespace Operator

variable {op : Operator} {ns : List Int64} {values : List Value}

/-! ## Integers -/

theorem toInt_ne_zero {n : Int64} (h : n ≠ 0) : n.toInt ≠ 0 :=
  fun hz => h (Int64.toInt_inj.mp hz)

/-- The result for integers is the exact one, reduced. -/
theorem compute_toInt {z : Int} (h : op.overInt? (ns.map Int64.toInt) = some z) :
    op.compute ns = .ok (.ofInt z) := by
  by_cases hop : op = .div
  · subst hop
    rcases ns with _ | ⟨a, _ | ⟨b, _ | ⟨c, ns⟩⟩⟩
    · cases h
    · cases h
    · have hb : b ≠ 0 := by
        rintro rfl
        cases h
      have hquotient : a / b = .ofInt (a.toInt.tdiv b.toInt) := by
        apply Int64.toInt_inj.mp
        rw [Int64.toInt_div, Int64.toInt_ofInt]
      simp only [overInt?, List.map_cons, List.map_nil, if_neg (toInt_ne_zero hb)] at h
      cases h
      simp only [compute, if_neg hb, hquotient]
    · cases h
  · have hback : (ns.map Int64.toInt).map Int64.ofInt = ns :=
      List.map_map.trans (List.map_id'' Int64.ofInt_toInt ns)
    have hreduced := compute_ofInt hop h
    rwa [hback] at hreduced

/-- Integers in the right number have an exact result, unless there is a divisor zero. -/
theorem exists_overInt?_or (h : op.arity.allows ns.length = true) :
    (∃ z, op.overInt? (ns.map Int64.toInt) = some z) ∨ op = .div ∧ ∃ n, ns = [n, 0] := by
  by_cases hop : op = .div
  · subst hop
    obtain ⟨a, b, rfl⟩ := List.length_eq_two.mp (allows_arity_iff.mp h (.inr rfl))
    by_cases hb : b = 0
    · exact .inr ⟨rfl, a, by rw [hb]⟩
    · exact .inl ⟨a.toInt.tdiv b.toInt, if_neg (toInt_ne_zero hb)⟩
  · left
    rwa [exists_overInt?_iff hop, List.length_map]

theorem compute_of_wrongCount (h : op.arity.allows ns.length = false) :
    op.compute ns = .error (.wrongCount op op.arity ns.length) := by
  rw [← Bool.not_eq_true, allows_arity_iff, Classical.not_imp] at h
  obtain ⟨hop, hlen⟩ := h
  unfold compute
  split
  · simp at hop
  · simp at hop
  · exact absurd rfl hlen
  · exact absurd rfl hlen
  · rfl
  · rfl

theorem allows_of_compute {n : Int64} (h : op.compute ns = .ok n) :
    op.arity.allows ns.length = true := by
  rw [← Bool.not_eq_false]
  intro hcount
  rw [compute_of_wrongCount hcount] at h
  cases h

/-! ## The ways to end -/

/-- What an operator gives for values: an error about the first that is no integer, else one about
their number, else one about a divisor zero, else the word that is congruent to the exact result. -/
inductive Gives (op : Operator) : List Value → Except EvalError Value → Prop where
  | notInteger {ns : List Int64} {v : Value} {behind : List Value} :
      v.int? = none → Gives op (Value.ofIntegers ns ++ v :: behind) (.error (.notInteger v))
  | wrongCount {ns : List Int64} : op.arity.allows ns.length = false →
      Gives op (Value.ofIntegers ns) (.error (.wrongCount op op.arity ns.length))
  | divisionByZero {n : Int64} :
      op = .div → Gives op (Value.ofIntegers [n, 0]) (.error .divisionByZero)
  | value {ns : List Int64} {z : Int} {n : Int64} :
      op.overInt? (ns.map Int64.toInt) = some z → n.toInt ≡ z [ZMOD 2 ^ 64] →
        Gives op (Value.ofIntegers ns) (.ok (.atom (.int n)))

theorem gives_apply (op : Operator) (values : List Value) : op.Gives values (op.apply values) := by
  cases hvalues : Value.integers values with
  | error e =>
    obtain ⟨ns, v, behind, rfl, hv, rfl⟩ := Value.integers_eq_error_iff_first.mp hvalues
    rw [apply, hvalues]
    exact .notInteger hv
  | ok ns =>
    obtain rfl := Value.integers_eq_ok_iff.mp hvalues
    rw [apply_integers]
    cases hcount : op.arity.allows ns.length with
    | false =>
      rw [compute_of_wrongCount hcount]
      exact .wrongCount hcount
    | true =>
      rcases exists_overInt?_or hcount with ⟨z, hz⟩ | ⟨rfl, n, rfl⟩
      · rw [compute_toInt hz]
        exact .value hz (toInt_modEq_iff.mpr rfl)
      · exact .divisionByZero rfl

theorem Gives.apply_eq {r : Except EvalError Value} (h : op.Gives values r) :
    op.apply values = r := by
  cases h with
  | notInteger hv =>
    rw [apply, Value.integers_eq_error_iff_first.mpr ⟨_, _, _, rfl, hv, rfl⟩]
  | wrongCount hcount => rw [apply_integers, compute_of_wrongCount hcount]
  | divisionByZero hop =>
    subst hop
    rw [apply_integers]
    rfl
  | value hz hn =>
    rw [apply_integers, compute_toInt hz, toInt_modEq_iff.mp hn]

theorem apply_eq_iff_gives {r : Except EvalError Value} :
    op.apply values = r ↔ op.Gives values r := by
  constructor
  · rintro rfl
    exact gives_apply op values
  · exact Gives.apply_eq

/-! ## Calls -/

theorem call_eq_ok_iff_apply {v : Value} :
    op.primitive.call values = .ok v ↔ op.apply values = .ok v := by
  rw [call_eq_ok_iff, apply_eq_ok_iff]
  constructor
  · exact And.right
  · rintro ⟨ns, n, rfl, hn, rfl⟩
    refine ⟨?_, ns, n, rfl, hn, rfl⟩
    rw [List.length_map]
    exact allows_of_compute hn

/-- A call looks at the number of arguments first, and the operator at their sort. -/
theorem call_ne_apply_iff :
    op.primitive.call values ≠ op.apply values ↔
      op.arity.allows values.length = false ∧ ∃ v ∈ values, v.int? = none := by
  cases hcount : op.arity.allows values.length with
  | true =>
    have hcall : op.primitive.call values = op.apply values := if_pos hcount
    simp [hcall]
  | false =>
    have hcall : op.primitive.call values =
        .error (.wrongCount op op.arity values.length) := if_neg (by simp [primitive, hcount])
    rw [hcall]
    cases hvalues : Value.integers values with
    | error e =>
      obtain ⟨ns, v, behind, rfl, hv, rfl⟩ := Value.integers_eq_error_iff_first.mp hvalues
      have hmem : v ∈ Value.ofIntegers ns ++ v :: behind := by simp
      refine iff_of_true ?_ ⟨rfl, v, hmem, hv⟩
      rw [apply, hvalues]
      simp
    | ok ns =>
      obtain rfl := Value.integers_eq_ok_iff.mp hvalues
      rw [List.length_map] at hcount
      refine iff_of_false ?_ (by simp [Value.int?])
      rw [apply_integers, compute_of_wrongCount hcount, List.length_map]
      simp

/-- An operator ends in an error about the first value that is no integer; if there is none, in one
about their number, with the arity of the operator; then in one about a divisor zero; and otherwise
in the only word that is congruent to the exact sum, product, difference or truncated quotient. A
call under any arity is turned down if the arity does not admit the number of values, and is that of
the operator if it does. Under the operator's own arity both succeed on the same values, and differ
only where the number is wrong and some value is no integer. -/
theorem results_of_calls (op : Operator) (values : List Value) :
    (∀ r, op.apply values = r ↔ op.Gives values r) ∧
    (∀ arity : Arity, (Primitive.mk op arity).call values =
      if arity.allows values.length then op.apply values
      else .error (.wrongCount op arity values.length)) ∧
    (∀ v, op.primitive.call values = .ok v ↔ op.apply values = .ok v) ∧
    (op.primitive.call values ≠ op.apply values ↔
      op.arity.allows values.length = false ∧ ∃ v ∈ values, v.int? = none) := by
  exact ⟨fun r => apply_eq_iff_gives, fun arity => rfl, fun v => call_eq_ok_iff_apply,
    call_ne_apply_iff⟩

/-- The one quotient that does not fit is the smallest integer again. -/
example : Operator.div.apply (Value.ofIntegers [Int64.minValue, -1]) =
    .ok (.atom (.int Int64.minValue)) := by decide

end Operator
end PrefixCalc
