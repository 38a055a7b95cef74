import PrefixCalc.Eval.Visits
import PrefixCalc.Proofs.Operation.Calls

/-!
# PrefixCalc.Proofs.Operation.Failures

What is wrong with a call that has no value.

* `call_eq_error_iff`: a call ends in the error that `failure?` finds.
* `call_of_failure?_eq_none`: where it finds none, the call is worth what the operator gives.
* `error_of_call`: the errors that there are.
-/

namespace PrefixCalc

namespace Value

theorem find?_integers (ns : List Int64) :
    (ofIntegers ns).find? (fun value => value.int? = none) = none := by
  simp [int?]

theorem integers_eq_error_iff {values : List Value} {e : EvalError} :
    integers values = .error e ↔
      ∃ v, values.find? (fun value => value.int? = none) = some v ∧ e = .notInteger v := by
  induction values with
  | nil => simp [integers]
  | cons value rest ih =>
    unfold integers
    cases hv : value.int? with
    | none => simp [hv, eq_comm]
    | some n =>
      simp only [List.find?_cons, hv, reduceCtorEq, decide_false]
      rw [← ih]
      cases integers rest with
      | error e' => simp
      | ok ns => simp

end Value

namespace Operator

variable {op : Operator} {values : List Value} {e : EvalError}

theorem compute_eq_error_iff {ns : List Int64} (h : op.arity.allows ns.length = true) :
    op.compute ns = .error e ↔ e = .divisionByZero ∧ op = .div ∧ ns.getLast? = some 0 := by
  rw [allows_arity_iff] at h
  cases op with
  | add => simp [compute]
  | mul => simp [compute]
  | sub =>
    obtain ⟨a, b, rfl⟩ := List.length_eq_two.mp (h (.inl rfl))
    simp [compute]
  | div =>
    obtain ⟨a, b, rfl⟩ := List.length_eq_two.mp (h (.inr rfl))
    by_cases hb : b = 0
    · simp [compute, hb, eq_comm]
    · simp [compute, hb]

theorem call_integers_eq_error_iff {ns : List Int64} (h : op.arity.allows ns.length = true) :
    op.primitive.call (Value.ofIntegers ns) = .error e ↔
      e = .divisionByZero ∧ op = .div ∧ ns.getLast? = some 0 := by
  rw [call_integers h, ← compute_eq_error_iff h]
  cases op.compute ns with
  | error e' => simp
  | ok n => simp

theorem call_eq_error_iff : op.primitive.call values = .error e ↔ op.failure? values = some e := by
  by_cases hallows : op.arity.allows values.length = true
  · cases hvalues : Value.integers values with
    | error e' =>
      obtain ⟨v, hfind, rfl⟩ := Value.integers_eq_error_iff.mp hvalues
      simp [Primitive.call, primitive, apply, failure?, hallows, hvalues, hfind]
    | ok ns =>
      obtain rfl := Value.integers_eq_ok_iff.mp hvalues
      rw [List.length_map] at hallows
      have hlast : (Value.ofIntegers ns).getLast? = some (.atom (.int 0)) ↔
          ns.getLast? = some 0 := by
        rw [List.getLast?_map, Option.map_eq_some_iff]
        simp
      rw [call_integers_eq_error_iff hallows]
      simp only [failure?, List.length_map, hallows, Value.find?_integers, hlast]
      simp [and_comm, eq_comm]
  · simp [Primitive.call, primitive, failure?, hallows]

theorem call_of_failure?_eq_none (h : op.failure? values = none) :
    ∃ v, op.primitive.call values = .ok v ∧ op.apply values = .ok v := by
  cases hcall : op.primitive.call values with
  | error e =>
    rw [call_eq_error_iff, h] at hcall
    cases hcall
  | ok v => exact ⟨v, rfl, apply_eq_ok_iff.mpr (call_eq_ok_iff.mp hcall).2⟩

/-- The errors of a call: a wrong number of arguments, one that is no integer, a divisor zero. -/
theorem error_of_call (h : op.primitive.call values = .error e) :
    (op.arity.allows values.length = false ∧ e = .wrongCount op op.arity values.length) ∨
      (∃ v ∈ values, v.int? = none ∧ e = .notInteger v) ∨
      (op = .div ∧ op.arity.allows values.length = true ∧ e = .divisionByZero) := by
  rw [call_eq_error_iff] at h
  unfold failure? at h
  split at h
  · rename_i hcount
    cases h
    exact .inl ⟨hcount, rfl⟩
  · rename_i hcount
    rw [Bool.not_eq_false] at hcount
    split at h
    · rename_i v hfind
      cases h
      exact .inr (.inl ⟨v, List.mem_of_find?_eq_some hfind, by simpa using List.find?_some hfind, rfl⟩)
    · split at h
      · rename_i hzero
        cases h
        exact .inr (.inr ⟨hzero.1, hcount, rfl⟩)
      · cases h

end Operator
end PrefixCalc
