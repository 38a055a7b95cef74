import PrefixCalc.Proofs.Eval.Frames
import PrefixCalc.Proofs.Operation.Failures

/-!
# PrefixCalc.Proofs.Eval.Visits

Evaluation comes to the lists of a program one after the other, and the first of them with something
wrong decides.

* `Sexp.eval_eq_outcome`: the value of an S-expression, or the first failure among its visits.
* `Frame.eval_fill_error`: what stands behind an S-expression that fails does not matter, and neither
  do the heads of the lists around it.
* `Program.eval_first_failure`: both for programs.
-/

namespace PrefixCalc

variable {limit depth : Nat}

namespace Visit

variable {α β : Type}

/-- The first failure among visits, or a result if there is none. -/
def outcome (limit : Nat) (vs : List Visit) (a : α) : Except EvalError α :=
  match vs.findSome? (failure? limit) with
  | some e => .error e
  | none => .ok a

theorem outcome_append (vs ws : List Visit) (a : α) (b : β) :
    outcome limit (vs ++ ws) b =
      match outcome limit vs a with
      | .error e => .error e
      | .ok _ => outcome limit ws b := by
  simp only [outcome, List.findSome?_append]
  cases vs.findSome? (failure? limit) with
  | some e => rfl
  | none => rfl

theorem outcome_singleton (v : Visit) (a : α) :
    outcome limit [v] a =
      match v.failure? limit with
      | some e => .error e
      | none => .ok a := by
  rw [outcome, List.findSome?_singleton]

theorem outcome_eq_ok_iff {vs : List Visit} {a b : α} :
    outcome limit vs a = .ok b ↔ (∀ v ∈ vs, v.failure? limit = none) ∧ b = a := by
  rw [← List.findSome?_eq_none_iff]
  unfold outcome
  cases vs.findSome? (failure? limit) with
  | some e => simp
  | none => simp [eq_comm]

/-! ## One visit -/

theorem failure?_of_le {items : List Sexp} (h : limit ≤ depth) :
    failure? limit ⟨depth, items⟩ = some (.nestingTooDeep limit) := by
  rw [failure?, if_pos h]

theorem failure?_nil (h : depth < limit) :
    failure? limit ⟨depth, []⟩ = some .missingOperator := by
  rw [failure?, if_neg (Nat.not_le.mpr h)]

theorem failure?_call {op : Operator} {args : List Sexp} (h : depth < limit) :
    failure? limit ⟨depth, .atom (.sym (.operator op)) :: args⟩ =
      op.failure? (Sexp.worths args) := by
  simp [failure?, Nat.not_le.mpr h]

theorem failure?_head {head : Sexp} {args : List Sexp} (h : depth < limit)
    (hop : ∀ op, head ≠ .atom (.sym (.operator op))) :
    failure? limit ⟨depth, head :: args⟩ = some (.unknownOperator head.text) := by
  rw [failure?, if_neg (Nat.not_le.mpr h)]
  split
  · rename_i hnil
    cases hnil
  · rename_i op _ heq
    cases heq
    exact absurd rfl (hop op)
  · rename_i heq
    cases heq
    rfl

end Visit

namespace Sexp

open Visit

theorem visits_list_of_le {items : List Sexp} (h : limit ≤ depth) :
    visits limit depth (.list items) = [⟨depth, items⟩] := by
  cases items with
  | nil => rfl
  | cons head args => rw [visits, if_pos h, List.nil_append]

theorem visits_cons_of_lt {head : Sexp} {args : List Sexp} (h : depth < limit) :
    visits limit depth (.list (head :: args)) =
      visitsAll limit (depth + 1) args ++ [⟨depth, head :: args⟩] := by
  rw [visits, if_neg (Nat.not_le.mpr h)]

theorem evalAll_eq_outcome {items : List Sexp}
    (h : ∀ x ∈ items, eval limit depth x = outcome limit (visits limit depth x) (worth x)) :
    evalAll limit depth items = outcome limit (visitsAll limit depth items) (worths items) := by
  induction items with
  | nil => rfl
  | cons x items ih =>
    obtain ⟨hx, hitems⟩ := List.forall_mem_cons.mp h
    rw [evalAll, visitsAll, worths, hx, ih hitems]
    simp only [outcome, List.findSome?_append]
    cases (visits limit depth x).findSome? (failure? limit) with
    | some e => rfl
    | none =>
      cases (visitsAll limit depth items).findSome? (failure? limit) with
      | some e => rfl
      | none => rfl

/-- A list whose arguments have values: the call, or what is wrong with the list by itself. -/
theorem call_eq_outcome (head : Sexp) (args : List Sexp) (h : depth < limit) :
    (match head.primitive with
      | .error e => .error e
      | .ok p => p.call (worths args)) =
      outcome limit [⟨depth, head :: args⟩] (worth (.list (head :: args))) := by
  rw [outcome_singleton]
  rcases primitive_cases head with ⟨op, rfl⟩ | ⟨hop, hp⟩
  · rw [failure?_call h]
    show op.primitive.call (worths args) = _
    cases hf : op.failure? (worths args) with
    | some e => exact Operator.call_eq_error_iff.mpr hf
    | none =>
      obtain ⟨v, hcall, happly⟩ := Operator.call_of_failure?_eq_none hf
      simp [worth, hcall, happly]
  · rw [failure?_head h hop, hp]

theorem eval_eq_outcome (x : Sexp) (depth : Nat) :
    eval limit depth x = outcome limit (visits limit depth x) (worth x) := by
  induction x generalizing depth with
  | atom leaf => rfl
  | list items ih =>
    rcases Nat.lt_or_ge depth limit with hl | hl
    · cases items with
      | nil => rw [eval_nil_of_lt hl, visits, outcome_singleton, failure?_nil hl]
      | cons head args =>
        have hargs := evalAll_eq_outcome fun x hx =>
          ih x (List.mem_cons_of_mem head hx) (depth + 1)
        rw [eval_cons_of_lt hl, visits_cons_of_lt hl, outcome_append _ _ (worths args), hargs]
        cases hvalues : outcome limit (visitsAll limit (depth + 1) args) (worths args) with
        | error e => rfl
        | ok values =>
          -- nothing is wrong with the arguments, so their values are what they are worth
          obtain ⟨-, rfl⟩ := outcome_eq_ok_iff.mp hvalues
          exact call_eq_outcome head args hl
    · rw [eval_list_of_le hl, visits_list_of_le hl, outcome_singleton, failure?_of_le hl]

theorem evalAll_of_error {x : Sexp} {e : EvalError} (h : eval limit depth x = .error e)
    (before behind : List Sexp) :
    evalAll limit depth (before ++ x :: behind) =
      match evalAll limit depth before with
      | .error e' => .error e'
      | .ok _ => .error e := by
  cases hbefore : evalAll limit depth before with
  | error e' => simp only [evalAll_append, hbefore]
  | ok vs => simp only [evalAll_append, evalAll, hbefore, h]

end Sexp

/-- An S-expression that fails, in two frames that have the same arguments in front of it. -/
theorem Frame.eval_fill_error {frame frame' : Frame} {x : Sexp} {e : EvalError}
    (hpassed : frame.passed = frame'.passed)
    (h : Sexp.eval limit (depth + frame.level) x = .error e) :
    ∃ e', Sexp.eval limit depth (frame.fill x) = .error e' ∧
      Sexp.eval limit depth (frame'.fill x) = .error e' := by
  induction frame generalizing depth frame' with
  | hole =>
    cases frame' with
    | hole => exact ⟨e, h, h⟩
    | argument head' before' inner' behind' => cases hpassed
  | argument head before inner behind ih =>
    cases frame' with
    | hole => cases hpassed
    | argument head' before' inner' behind' =>
      obtain ⟨rfl, hinner⟩ := List.cons.inj hpassed
      have hlevel : depth + (inner.level + 1) = depth + 1 + inner.level := by omega
      rw [level, hlevel] at h
      obtain ⟨e', hl, hr⟩ := ih hinner h
      rcases Nat.lt_or_ge depth limit with hlt | hle
      · rw [fill, fill, Sexp.eval_cons_of_lt hlt, Sexp.eval_cons_of_lt hlt,
          Sexp.evalAll_of_error hl, Sexp.evalAll_of_error hr]
        cases Sexp.evalAll limit (depth + 1) before with
        | error e'' => exact ⟨e'', rfl, rfl⟩
        | ok vs => exact ⟨e', rfl, rfl⟩
      · exact ⟨.nestingTooDeep limit, Sexp.eval_list_of_le hle, Sexp.eval_list_of_le hle⟩

namespace Program

theorem eval_fill_error {frame frame' : Frame} {x : Sexp} {e : EvalError}
    (hpassed : frame.passed = frame'.passed) (h : Sexp.eval limit frame.level x = .error e)
    (before behind behind' : List Sexp) :
    ∃ e', eval limit (before ++ frame.fill x :: behind) = .error e' ∧
      eval limit (before ++ frame'.fill x :: behind') = .error e' := by
  rw [← Nat.zero_add frame.level] at h
  obtain ⟨e', hl, hr⟩ := Frame.eval_fill_error hpassed h
  simp only [eval, Sexp.evalAll_of_error hl, Sexp.evalAll_of_error hr]
  cases Sexp.evalAll limit 0 before with
  | error e'' => exact ⟨e'', rfl, rfl⟩
  | ok vs => exact ⟨e', rfl, rfl⟩

theorem eval_eq_failure? (limit : Nat) (program : Program) :
    program.eval limit =
      match program.failure? limit with
      | some e => .error e
      | none => .ok ((Sexp.worths program).getLastD .nil) := by
  have hall : Sexp.evalAll limit 0 program =
      Visit.outcome limit (Sexp.visitsAll limit 0 program) (Sexp.worths program) :=
    Sexp.evalAll_eq_outcome fun x _ => Sexp.eval_eq_outcome x 0
  rw [eval, hall, Visit.outcome]
  unfold failure?
  cases (Sexp.visitsAll limit 0 program).findSome? (Visit.failure? limit) with
  | some e => rfl
  | none => rfl

theorem eval_eq_error_iff {program : Program} {e : EvalError} :
    program.eval limit = .error e ↔ program.failure? limit = some e := by
  rw [eval_eq_failure?]
  cases program.failure? limit with
  | some e' => simp
  | none => simp

theorem failure?_eq_none_iff {program : Program} :
    program.failure? limit = none ↔
      ∀ v ∈ Sexp.visitsAll limit 0 program, v.failure? limit = none :=
  List.findSome?_eq_none_iff

/-- A program ends in an error exactly if one of the lists that evaluation comes to has something
wrong with it, and the error is what is wrong with the first of them. Where nothing is wrong with any
of them, the program has the value that it is worth. What fails somewhere makes a program fail in one
way, whatever the heads of the lists around it are and whatever stands behind it. -/
theorem eval_first_failure (limit : Nat) :
    (∀ (program : Program) (e : EvalError), program.eval limit = .error e ↔
      ∃ front v back, Sexp.visitsAll limit 0 program = front ++ v :: back ∧
        (∀ u ∈ front, u.failure? limit = none) ∧ v.failure? limit = some e) ∧
    (∀ (program : Program) (value : Value), program.eval limit = .ok value ↔
      (∀ v ∈ Sexp.visitsAll limit 0 program, v.failure? limit = none) ∧
        value = (Sexp.worths program).getLastD .nil) ∧
    ∀ (frame frame' : Frame) (x : Sexp) (e : EvalError) (before behind behind' : List Sexp),
      frame.passed = frame'.passed → Sexp.eval limit frame.level x = .error e →
      ∃ e', eval limit (before ++ frame.fill x :: behind) = .error e' ∧
        eval limit (before ++ frame'.fill x :: behind') = .error e' := by
  refine ⟨?_, ?_, ?_⟩
  · intro program e
    rw [eval_eq_error_iff, failure?, List.findSome?_eq_some_iff]
    simp only [and_comm]
  · intro program value
    rw [eval_eq_failure?, ← failure?_eq_none_iff]
    cases program.failure? limit with
    | some e => simp
    | none => simp [eq_comm]
  · intro frame frame' x e before behind behind' hpassed h
    exact eval_fill_error hpassed h before behind behind'

/-- A quotient by zero stands in an argument of a list. It makes no difference that the head of this
list is no operator or is a list itself, and that an empty list stands behind it. -/
theorem eval_first_failure_quotient :
    eval 2 [.list [.atom (.sym (.name "f")),
        .list [.atom (.sym (.operator .div)), .atom (.int 1), .atom (.int 0)], .list []]] =
          .error .divisionByZero ∧
      eval 2 [.list [.list [.list []],
        .list [.atom (.sym (.operator .div)), .atom (.int 1), .atom (.int 0)]], .list []] =
          .error .divisionByZero := by
  let quotient : Sexp := .list [.atom (.sym (.operator .div)), .atom (.int 1), .atom (.int 0)]
  let frame : Frame := .argument (.atom (.sym (.name "f"))) [] .hole [.list []]
  let frame' : Frame := .argument (.list [.list []]) [] .hole []
  obtain ⟨hfirst, -, hframes⟩ := eval_first_failure 2
  have hfails : Sexp.eval 2 frame.level quotient = .error .divisionByZero := by decide
  obtain ⟨e, hl, hr⟩ := hframes frame frame' quotient _ [] [] [.list []] rfl hfails
  have he : eval 2 [frame.fill quotient] = .error .divisionByZero :=
    (hfirst _ _).mpr ⟨[], ⟨1, [.atom (.sym (.operator .div)), .atom (.int 1), .atom (.int 0)]⟩,
      [⟨1, []⟩, ⟨0, [.atom (.sym (.name "f")), quotient, .list []]⟩], rfl, by simp, by decide⟩
  cases he.symm.trans hl
  exact ⟨hl, hr⟩

end Program
end PrefixCalc
