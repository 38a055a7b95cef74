import Mathlib.Data.List.Basic
import PrefixCalc.Operation.Basic

/-!
# PrefixCalc.Proofs.Operation.Calls

When a call of an operator has a value.

* `call_eq_ok_iff`: the arguments are integers, their number is one that the operator takes, and
  there is a result for these integers.
* `compute_cases`: of integers in the right number only a divisor zero leaves no result.
-/

namespace PrefixCalc
namespace Operator

variable {op : Operator}

theorem allows_arity_iff {n : Nat} :
    op.arity.allows n = true ↔ (op = .sub ∨ op = .div → n = 2) := by
  cases op with
  | add => simp [arity, Arity.allows_atLeast_iff]
  | sub => simp [arity, Arity.allows_exactly_iff]
  | mul => simp [arity, Arity.allows_atLeast_iff]
  | div => simp [arity, Arity.allows_exactly_iff]

theorem compute_cases {ns : List Int64} (h : op.arity.allows ns.length = true) :
    (∃ n, op.compute ns = .ok n) ∨ (op = .div ∧ op.compute ns = .error .divisionByZero) := by
  rw [allows_arity_iff] at h
  cases op with
  | add => exact .inl ⟨_, rfl⟩
  | mul => exact .inl ⟨_, rfl⟩
  | sub =>
    obtain ⟨a, b, rfl⟩ := List.length_eq_two.mp (h (.inl rfl))
    exact .inl ⟨a - b, rfl⟩
  | div =>
    obtain ⟨a, b, rfl⟩ := List.length_eq_two.mp (h (.inr rfl))
    by_cases hb : b = 0
    · exact .inr ⟨rfl, by simp [compute, hb]⟩
    · exact .inl ⟨a / b, by simp [compute, hb]⟩

theorem apply_integers (op : Operator) (ns : List Int64) :
    op.apply (Value.ofIntegers ns) =
      match op.compute ns with
      | .error e => .error e
      | .ok n => .ok (.atom (.int n)) := by
  have hns := Value.integers_ofIntegers ns
  cases hc : op.compute ns with
  | error e => simp [apply, hns, hc]
  | ok n => simp [apply, hns, hc]

theorem apply_eq_ok_iff {values : List Value} {v : Value} :
    op.apply values = .ok v ↔
      ∃ ns n, values = Value.ofIntegers ns ∧ op.compute ns = .ok n ∧
        v = .atom (.int n) := by
  constructor
  · intro h
    unfold apply at h
    split at h
    · cases h
    · rename_i ns hns
      split at h
      · cases h
      · rename_i n hn
        cases h
        exact ⟨ns, n, Value.integers_eq_ok_iff.mp hns, hn, rfl⟩
  · rintro ⟨ns, n, rfl, hn, rfl⟩
    rw [apply_integers, hn]

theorem call_eq_ok_iff {values : List Value} {v : Value} :
    op.primitive.call values = .ok v ↔
      op.arity.allows values.length = true ∧
        ∃ ns n, values = Value.ofIntegers ns ∧ op.compute ns = .ok n ∧
          v = .atom (.int n) := by
  rw [← apply_eq_ok_iff]
  unfold Primitive.call primitive
  split
  · rename_i h
    simp only [h, true_and]
  · rename_i h
    simp [h]

/-- A call on integers, in a number that the operator takes. -/
theorem call_integers {ns : List Int64} (h : op.arity.allows ns.length = true) :
    op.primitive.call (Value.ofIntegers ns) =
      match op.compute ns with
      | .error e => .error e
      | .ok n => .ok (.atom (.int n)) := by
  rw [← apply_integers]
  simp [Primitive.call, primitive, h]

end Operator

end PrefixCalc
