import PrefixCalc.Source

/-!
# PrefixCalc.Proofs.Source.Stages

A run over source text by its stages: it ends with the first stage that fails.
-/

namespace PrefixCalc
namespace Source

variable {limit : Nat} {source : String}

theorem program_eq_ok_iff {p : Program} :
    program limit source = .ok p ↔ Program.ofText limit source = .ok p := by
  unfold program
  cases Program.ofText limit source with
  | error e => simp
  | ok p' => simp

theorem program_eq_error_iff {e : ReadError} :
    program limit source = .error (.read e) ↔ Program.ofText limit source = .error e := by
  unfold program
  cases Program.ofText limit source with
  | error e' => simp
  | ok p => simp

theorem value_of_ofText_error {e : ReadError} (h : Program.ofText limit source = .error e) :
    value limit source = .error (.read e) := by
  simp [value, program, h]

theorem value_of_ofText_ok {p : Program} (h : Program.ofText limit source = .ok p) :
    value limit source = (p.eval limit).mapError .eval := by
  simp only [value, program, h]
  cases p.eval limit with
  | error e => rfl
  | ok v => rfl

section
variable {p : Program} {e : EvalError} {v : Value}

theorem value_of_eval_error (hp : Program.ofText limit source = .ok p)
    (h : p.eval limit = .error e) : value limit source = .error (.eval e) := by
  rw [value_of_ofText_ok hp, h]
  rfl

theorem value_of_eval_ok (hp : Program.ofText limit source = .ok p) (h : p.eval limit = .ok v) :
    value limit source = .ok v := by
  rw [value_of_ofText_ok hp, h]
  rfl

end

theorem value_eq_ok_iff {v : Value} :
    value limit source = .ok v ↔
      ∃ p, Program.ofText limit source = .ok p ∧ p.eval limit = .ok v := by
  cases hp : Program.ofText limit source with
  | error e => simp [value_of_ofText_error hp]
  | ok p =>
    cases hv : p.eval limit with
    | error e => simp [value_of_eval_error hp hv, hv]
    | ok w => simp [value_of_eval_ok hp hv, hv]

/-- A run fails in reading or, behind that, in evaluation. -/
theorem value_eq_error_iff {failure : Failure} :
    value limit source = .error failure ↔
      (∃ e, Program.ofText limit source = .error e ∧ failure = .read e) ∨
        ∃ p e, Program.ofText limit source = .ok p ∧ p.eval limit = .error e ∧
          failure = .eval e := by
  cases hp : Program.ofText limit source with
  | error e => simp [value_of_ofText_error hp, eq_comm]
  | ok p =>
    cases hv : p.eval limit with
    | error e => simp [value_of_eval_error hp hv, hv, eq_comm]
    | ok v => simp [value_of_eval_ok hp hv, hv]

end Source
end PrefixCalc
