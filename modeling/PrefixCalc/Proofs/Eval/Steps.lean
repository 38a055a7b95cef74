import PrefixCalc.Eval

/-!
# PrefixCalc.Proofs.Eval.Steps

What evaluation does at one list, and over a sequence.

* `eval_list_of_le`, `eval_nil_of_lt`, `eval_cons_of_lt`: evaluation of a list, which stands too deep
  or does not.
* `eval_list_eq_ok_iff`: a list has a value if it does not stand too deep, its head is an operator,
  its arguments have values and the call on these has one.
* `listError_of_eval`: the ways in which a list has no value.
* `evalAll_append`: a sequence is evaluated part by part.
* `Program.eval_append`: of two programs one behind the other, the second decides unless it is empty
  or the first one fails.
-/

namespace PrefixCalc
namespace Sexp

variable {limit depth : Nat}

theorem primitive_eq_ok_iff {head : Sexp} {p : Primitive} :
    head.primitive = .ok p ↔ ∃ op, head = .atom (.sym (.operator op)) ∧ p = op.primitive := by
  constructor
  · intro h
    unfold primitive at h
    split at h
    · rename_i symbol
      cases symbol with
      | operator op =>
        cases h
        exact ⟨op, rfl, rfl⟩
      | name text => cases h
    · cases h
  · rintro ⟨op, rfl, rfl⟩
    rfl

/-- A head is an operator, or it is none and the error shows its text. -/
theorem primitive_cases (head : Sexp) :
    (∃ op, head = .atom (.sym (.operator op))) ∨
      (∀ op, head ≠ .atom (.sym (.operator op))) ∧
        head.primitive = .error (.unknownOperator head.text) := by
  cases head with
  | atom leaf =>
    cases leaf with
    | sym symbol =>
      cases symbol with
      | operator op => exact .inl ⟨op, rfl⟩
      | name text => exact .inr ⟨by simp, rfl⟩
    | _ => exact .inr ⟨by simp, rfl⟩
  | list items => exact .inr ⟨by simp, rfl⟩

theorem eval_list_of_le {items : List Sexp} (h : limit ≤ depth) :
    eval limit depth (.list items) = .error (.nestingTooDeep limit) := by
  cases items with
  | nil => rw [eval, if_pos h]
  | cons head args => rw [eval, if_pos h]

theorem eval_nil_of_lt (h : depth < limit) :
    eval limit depth (.list []) = .error .missingOperator := by
  rw [eval, if_neg (Nat.not_le.mpr h)]

theorem eval_cons_of_lt {head : Sexp} {args : List Sexp} (h : depth < limit) :
    eval limit depth (.list (head :: args)) =
      match evalAll limit (depth + 1) args with
      | .error e => .error e
      | .ok values =>
        match head.primitive with
        | .error e => .error e
        | .ok p => p.call values := by
  unfold eval
  exact if_neg (Nat.not_le.mpr h)

theorem eval_list_eq_ok_iff {items : List Sexp} {v : Value} :
    eval limit depth (.list items) = .ok v ↔
      depth < limit ∧ ∃ op args values, items = .atom (.sym (.operator op)) :: args ∧
        evalAll limit (depth + 1) args = .ok values ∧ op.primitive.call values = .ok v := by
  constructor
  · intro h
    rcases Nat.lt_or_ge depth limit with hl | hl
    · cases items with
      | nil =>
        rw [eval_nil_of_lt hl] at h
        cases h
      | cons head args =>
        rw [eval_cons_of_lt hl] at h
        split at h
        · cases h
        · rename_i values hvalues
          split at h
          · cases h
          · rename_i p hp
            obtain ⟨op, rfl, rfl⟩ := primitive_eq_ok_iff.mp hp
            exact ⟨hl, op, args, values, rfl, hvalues, h⟩
    · rw [eval_list_of_le hl] at h
      cases h
  · rintro ⟨hl, op, args, values, rfl, hvalues, h⟩
    have hp : primitive (.atom (.sym (.operator op))) = .ok op.primitive := rfl
    simp only [eval_cons_of_lt hl, hvalues, hp, h]

/-- The ways in which the evaluation of a list, given by its items, ends in an error. -/
inductive ListError (limit depth : Nat) : List Sexp → EvalError → Prop where
  | tooDeep {items : List Sexp} :
      limit ≤ depth → ListError limit depth items (.nestingTooDeep limit)
  | empty : depth < limit → ListError limit depth [] .missingOperator
  | argument {head : Sexp} {args : List Sexp} {e : EvalError} :
      depth < limit → evalAll limit (depth + 1) args = .error e →
        ListError limit depth (head :: args) e
  | head {head : Sexp} {args : List Sexp} {values : List Value} :
      depth < limit → evalAll limit (depth + 1) args = .ok values →
        (∀ op, head ≠ .atom (.sym (.operator op))) →
        ListError limit depth (head :: args) (.unknownOperator head.text)
  | call {op : Operator} {args : List Sexp} {values : List Value} {e : EvalError} :
      depth < limit → evalAll limit (depth + 1) args = .ok values →
        op.primitive.call values = .error e →
        ListError limit depth (.atom (.sym (.operator op)) :: args) e

theorem listError_of_eval {items : List Sexp} {e : EvalError}
    (h : eval limit depth (.list items) = .error e) : ListError limit depth items e := by
  rcases Nat.lt_or_ge depth limit with hl | hl
  · cases items with
    | nil =>
      rw [eval_nil_of_lt hl] at h
      cases h
      exact .empty hl
    | cons head args =>
      rw [eval_cons_of_lt hl] at h
      split at h
      · rename_i e' hargs
        cases h
        exact .argument hl hargs
      · rename_i values hvalues
        rcases primitive_cases head with ⟨op, rfl⟩ | ⟨hop, hp⟩
        · exact .call hl hvalues h
        · rw [hp] at h
          cases h
          exact .head hl hvalues hop
  · rw [eval_list_of_le hl] at h
    cases h
    exact .tooDeep hl

theorem evalAll_cons_eq_ok_iff {x : Sexp} {items : List Sexp} {values : List Value} :
    evalAll limit depth (x :: items) = .ok values ↔
      ∃ v vs, eval limit depth x = .ok v ∧ evalAll limit depth items = .ok vs ∧
        values = v :: vs := by
  constructor
  · intro h
    unfold evalAll at h
    split at h
    · cases h
    · rename_i v hv
      split at h
      · cases h
      · rename_i vs hvs
        cases h
        exact ⟨v, vs, hv, hvs, rfl⟩
  · rintro ⟨v, vs, hv, hvs, rfl⟩
    simp [evalAll, hv, hvs]

theorem length_of_evalAll {items : List Sexp} {values : List Value}
    (h : evalAll limit depth items = .ok values) : values.length = items.length := by
  induction items generalizing values with
  | nil =>
    cases h
    rfl
  | cons x items ih =>
    obtain ⟨v, vs, -, hvs, rfl⟩ := evalAll_cons_eq_ok_iff.mp h
    rw [List.length_cons, List.length_cons, ih hvs]

theorem exists_value_of_mem {items : List Sexp} {values : List Value} {x : Sexp}
    (h : evalAll limit depth items = .ok values) (hx : x ∈ items) :
    ∃ v ∈ values, eval limit depth x = .ok v := by
  induction items generalizing values with
  | nil => cases hx
  | cons y items ih =>
    obtain ⟨v, vs, hv, hvs, rfl⟩ := evalAll_cons_eq_ok_iff.mp h
    rcases List.mem_cons.mp hx with rfl | hx
    · exact ⟨v, List.mem_cons_self .., hv⟩
    · obtain ⟨w, hw, hxw⟩ := ih hvs hx
      exact ⟨w, List.mem_cons_of_mem _ hw, hxw⟩

theorem exists_mem_of_value {items : List Sexp} {values : List Value} {v : Value}
    (h : evalAll limit depth items = .ok values) (hv : v ∈ values) :
    ∃ x ∈ items, eval limit depth x = .ok v := by
  induction items generalizing values with
  | nil =>
    cases h
    cases hv
  | cons y items ih =>
    obtain ⟨w, vs, hw, hvs, rfl⟩ := evalAll_cons_eq_ok_iff.mp h
    rcases List.mem_cons.mp hv with rfl | hv
    · exact ⟨y, List.mem_cons_self .., hw⟩
    · obtain ⟨x, hx, hxv⟩ := ih hvs hv
      exact ⟨x, List.mem_cons_of_mem _ hx, hxv⟩

theorem exists_error_of_evalAll {items : List Sexp} {e : EvalError}
    (h : evalAll limit depth items = .error e) : ∃ x ∈ items, eval limit depth x = .error e := by
  induction items with
  | nil => cases h
  | cons x items ih =>
    unfold evalAll at h
    split at h
    · rename_i e' he
      cases h
      exact ⟨x, List.mem_cons_self .., he⟩
    · split at h
      · rename_i e' he
        cases h
        obtain ⟨y, hy, hye⟩ := ih he
        exact ⟨y, List.mem_cons_of_mem _ hy, hye⟩
      · cases h

theorem evalAll_append (front back : List Sexp) :
    evalAll limit depth (front ++ back) =
      match evalAll limit depth front with
      | .error e => .error e
      | .ok vs =>
        match evalAll limit depth back with
        | .error e => .error e
        | .ok ws => .ok (vs ++ ws) := by
  induction front with
  | nil =>
    rw [List.nil_append, evalAll]
    cases evalAll limit depth back with
    | error e => rfl
    | ok ws => rfl
  | cons x front ih =>
    rw [List.cons_append, evalAll, evalAll, ih]
    cases eval limit depth x with
    | error e => rfl
    | ok v =>
      cases evalAll limit depth front with
      | error e => rfl
      | ok vs =>
        cases evalAll limit depth back with
        | error e => rfl
        | ok ws => rfl

end Sexp

namespace Program

theorem eval_eq_ok_iff {limit : Nat} {program : Program} {v : Value} :
    program.eval limit = .ok v ↔
      ∃ values, Sexp.evalAll limit 0 program = .ok values ∧ v = values.getLastD .nil := by
  unfold eval
  cases Sexp.evalAll limit 0 program with
  | error e => simp
  | ok values => simp [eq_comm]

theorem eval_append (limit : Nat) (front back : Program) :
    eval limit (front ++ back) =
      match eval limit front with
      | .error e => .error e
      | .ok v => if back = [] then .ok v else eval limit back := by
  unfold eval
  rw [Sexp.evalAll_append]
  cases Sexp.evalAll limit 0 front with
  | error e => rfl
  | ok vs =>
    cases back with
    | nil => simp [Sexp.evalAll]
    | cons x back =>
      cases h : Sexp.evalAll limit 0 (x :: back) with
      | error e => simp
      | ok ws =>
        obtain ⟨w, ws, -, -, rfl⟩ := Sexp.evalAll_cons_eq_ok_iff.mp h
        simp [List.getLast?_cons]

end Program
end PrefixCalc
