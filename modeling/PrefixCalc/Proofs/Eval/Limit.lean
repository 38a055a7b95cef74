import PrefixCalc.Proofs.Eval.Steps
import PrefixCalc.Proofs.Eval.WellFormed
import PrefixCalc.Proofs.Limit
import PrefixCalc.Proofs.Operation.Failures

/-!
# PrefixCalc.Proofs.Eval.Limit

The nesting limit of evaluation.

* `eval_persists`, `Program.eval_persists`: the limit matters only where it is too low.
* `eval_ne_tooDeep`, `Program.eval_ne_tooDeep`: it is not too low for what nests no deeper.
* `Program.eval_threshold`: so it is a threshold, for whole programs and for single S-expressions. It
  depends on how far evaluation comes, so it can be lower than the program nests, but not if the
  program has a value.
-/

namespace PrefixCalc
namespace Sexp

theorem evalAll_persists {depth : Nat} {items : List Sexp}
    (h : ∀ x ∈ items, Persists EvalError.nestingTooDeep fun limit => eval limit depth x) :
    Persists EvalError.nestingTooDeep fun limit => evalAll limit depth items := by
  induction items with
  | nil => exact .const _
  | cons x items ih =>
    obtain ⟨hx, hitems⟩ := List.forall_mem_cons.mp h
    refine hx.andThen (fun m e h => by simp [evalAll, h]) fun m n v hmn hv hv' => ?_
    rcases ih hitems m n hmn with h | h
    · exact .inl (by simp [evalAll, hv, h])
    · exact .inr (by simp [evalAll, hv, hv', h])

theorem eval_persists (x : Sexp) (depth : Nat) :
    Persists EvalError.nestingTooDeep fun limit => eval limit depth x := by
  induction x generalizing depth with
  | atom leaf => exact .const _
  | list items ih =>
    intro m n hmn
    rcases Nat.lt_or_ge depth m with hm | hm
    · have hn : depth < n := by omega
      cases items with
      | nil => exact .inr ((eval_nil_of_lt hn).trans (eval_nil_of_lt hm).symm)
      | cons head args =>
        have hargs := evalAll_persists fun x hx =>
          ih x (List.mem_cons_of_mem head hx) (depth + 1)
        rcases hargs m n hmn with h | h
        · exact .inl (by simp [eval_cons_of_lt hm, h])
        · exact .inr (by simp [eval_cons_of_lt hm, eval_cons_of_lt hn, h])
    · exact .inl (eval_list_of_le hm)

theorem eval_ne_tooDeep {limit depth n : Nat} {x : Sexp} (h : x.depth ≤ limit - depth) :
    eval limit depth x ≠ .error (.nestingTooDeep n) := by
  induction x generalizing depth with
  | atom leaf =>
    intro he
    cases he
  | list items ih =>
    obtain ⟨hlt, hitems⟩ := depth_list_le_iff.mp h
    intro he
    cases listError_of_eval he with
    | tooDeep hl => omega
    | @argument head args _ _ hargs =>
      obtain ⟨x, hx, hxe⟩ := exists_error_of_evalAll hargs
      have hmem := List.mem_cons_of_mem head hx
      exact ih x hmem (depthAll_le_iff.mp hitems x hmem) hxe
    | call _ _ hcall =>
      rcases Operator.error_of_call hcall with ⟨_, h'⟩ | ⟨_, _, _, h'⟩ | ⟨_, _, h'⟩ <;> cases h'

end Sexp

namespace Program

theorem eval_persists (program : Program) :
    Persists EvalError.nestingTooDeep fun limit => program.eval limit := by
  have hall := Sexp.evalAll_persists fun x (_ : x ∈ program) => Sexp.eval_persists x 0
  exact hall.andThen (fun m e h => by simp [eval, h]) fun m n values _ hm hn =>
    .inr (by simp [eval, hm, hn])

theorem eval_ne_tooDeep {limit n : Nat} {program : Program} (h : program.depth ≤ limit) :
    program.eval limit ≠ .error (.nestingTooDeep n) := by
  intro he
  unfold eval at he
  split at he
  · rename_i e hall
    cases he
    obtain ⟨x, hx, hxe⟩ := Sexp.exists_error_of_evalAll hall
    exact Sexp.eval_ne_tooDeep (Sexp.depthAll_le_iff.mp h x hx) hxe
  · cases he

/-- A program that stays within the limit has the same value under any higher one. -/
theorem eval_eq_of_depth_le {m n : Nat} {program : Program} (h : program.depth ≤ m) (hmn : m ≤ n) :
    program.eval n = program.eval m :=
  (eval_persists program).eq_of_le hmn (eval_ne_tooDeep h)

end Program

/-! ## Thresholds -/

theorem Sexp.eval_hasThreshold (x : Sexp) :
    HasThreshold EvalError.nestingTooDeep (fun limit => eval limit 0 x) x.depth :=
  (eval_persists x 0).hasThreshold fun _ => eval_ne_tooDeep (Nat.le_refl _)

namespace Program

theorem eval_hasThreshold (program : Program) :
    HasThreshold EvalError.nestingTooDeep (fun limit => program.eval limit) program.depth :=
  (eval_persists program).hasThreshold fun _ => eval_ne_tooDeep (Nat.le_refl _)

theorem depth_le_of_eval {limit : Nat} {program : Program} {v : Value}
    (h : program.eval limit = .ok v) : program.depth ≤ limit :=
  (wellFormed_of_eval h).1

/-- The limit is a threshold for a program and for each S-expression in it, no higher than they
nest. A program that has a value nests no deeper than the limit, heads included. -/
theorem eval_threshold (program : Program) :
    HasThreshold EvalError.nestingTooDeep (fun limit => program.eval limit) program.depth ∧
    (∀ x ∈ program,
      HasThreshold EvalError.nestingTooDeep (fun limit => Sexp.eval limit 0 x) x.depth) ∧
    ∀ (limit : Nat) (v : Value), program.eval limit = .ok v → program.depth ≤ limit :=
  ⟨program.eval_hasThreshold, fun x _ => x.eval_hasThreshold, fun _ _ => depth_le_of_eval⟩

/-- A division by zero in front of three levels, which evaluation does not come to: for both together
one level is enough. -/
theorem eval_threshold_quotient :
    (∀ m, 1 ≤ m → eval m [.list [.atom (.sym (.operator .div)), .atom (.int 1), .atom (.int 0)],
      .list [.atom (.sym (.operator .add)), .list [.atom (.sym (.operator .add)),
        .list [.atom (.sym (.operator .mul))]]]] = .error .divisionByZero) ∧
      (∀ m < 3, Sexp.eval m 0 (.list [.atom (.sym (.operator .add)),
        .list [.atom (.sym (.operator .add)), .list [.atom (.sym (.operator .mul))]]]) =
          .error (.nestingTooDeep m)) ∧
      Program.depth [.list [.atom (.sym (.operator .add)),
        .list [.atom (.sym (.operator .add)), .list [.atom (.sym (.operator .mul))]]]] ≤ 4 := by
  let quotient : Sexp := .list [.atom (.sym (.operator .div)), .atom (.int 1), .atom (.int 0)]
  let sum : Sexp := .list [.atom (.sym (.operator .add)),
    .list [.atom (.sym (.operator .add)), .list [.atom (.sym (.operator .mul))]]]
  obtain ⟨⟨t, -, result, hbelow, habove, -⟩, hsum, -⟩ := eval_threshold [quotient, sum]
  obtain ⟨u, -, result', hbelow', habove', hne'⟩ := hsum sum (by simp)
  refine ⟨fun m hm => ?_, fun m hm => hbelow' m ?_, ?_⟩
  · have hone : eval 1 [quotient, sum] = .error .divisionByZero := by decide
    have ht : t ≤ 1 := by
      by_contra hlt
      cases hone.symm.trans (hbelow 1 (by omega))
    exact (habove m (by omega)).trans ((habove 1 ht).symm.trans hone)
  · have htwo : Sexp.eval 2 0 sum = .error (.nestingTooDeep 2) := by decide
    have hu : ¬ u ≤ 2 := fun hle => hne' 2 ((habove' 2 hle).symm.trans htwo)
    omega
  · have hfour : eval 4 [sum] = .ok (.atom (.int 1)) := by decide
    exact (eval_threshold [sum]).2.2 4 _ hfour

end Program
end PrefixCalc
