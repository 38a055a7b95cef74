import PrefixCalc.Proofs.Eval.Steps
import PrefixCalc.Proofs.Operation.Calls
import PrefixCalc.Sexp.Parts

/-!
# PrefixCalc.Proofs.Eval.Values

Which values evaluation gives.

* `eval_cases`: an atom is its own value, and a list is worth an integer.
* `Program.eval_cases`: a program is worth nothing if it is empty, and otherwise an integer or one of
  its own atoms.
-/

namespace PrefixCalc

theorem Sexp.eval_cases {limit depth : Nat} {x : Sexp} {v : Value}
    (h : eval limit depth x = .ok v) :
    (∃ leaf, x = .atom leaf ∧ v = .atom leaf) ∨ ∃ n, v = .atom (.int n) := by
  cases x with
  | atom leaf =>
    cases h
    exact .inl ⟨leaf, rfl, rfl⟩
  | list items =>
    obtain ⟨-, op, args, values, rfl, -, hcall⟩ := eval_list_eq_ok_iff.mp h
    obtain ⟨-, ns, n, rfl, -, rfl⟩ := Operator.call_eq_ok_iff.mp hcall
    exact .inr ⟨n, rfl⟩

theorem Sexp.exists_atom_of_eval {limit depth : Nat} {x : Sexp} {v : Value}
    (h : eval limit depth x = .ok v) : ∃ leaf, v = .atom leaf := by
  rcases eval_cases h with ⟨leaf, -, rfl⟩ | ⟨n, rfl⟩
  · exact ⟨leaf, rfl⟩
  · exact ⟨.int n, rfl⟩

theorem Program.eval_cases {limit : Nat} {program : Program} {v : Value}
    (h : program.eval limit = .ok v) :
    (program = [] ∧ v = .nil) ∨
      ∃ leaf, v = .atom leaf ∧ (leaf ∈ Sexp.leavesAll program ∨ ∃ n, leaf = .int n) := by
  obtain ⟨values, hvalues, rfl⟩ := eval_eq_ok_iff.mp h
  cases program with
  | nil =>
    cases hvalues
    exact .inl ⟨rfl, rfl⟩
  | cons x rest =>
    right
    obtain ⟨w, ws, -, -, rfl⟩ := Sexp.evalAll_cons_eq_ok_iff.mp hvalues
    have hlast : (w :: ws).getLastD .nil ∈ w :: ws := by
      rw [List.getLastD_cons]
      exact List.getLastD_mem_cons ..
    obtain ⟨y, hy, hyv⟩ := Sexp.exists_mem_of_value hvalues hlast
    rcases Sexp.eval_cases hyv with ⟨leaf, rfl, hv⟩ | ⟨n, hv⟩
    · exact ⟨leaf, hv, .inl (Sexp.mem_leavesAll_iff.mpr ⟨_, hy, List.mem_singleton_self leaf⟩)⟩
    · exact ⟨.int n, hv, .inr ⟨n, rfl⟩⟩

end PrefixCalc
