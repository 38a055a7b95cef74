import Mathlib.Data.List.Forall2
import Mathlib.Data.List.Perm.Basic
import PrefixCalc.Proofs.Eval.WellFormed
import PrefixCalc.Proofs.Operation.Results

/-!
# PrefixCalc.Proofs.Eval.Regrouping

The arguments of sums and products in another order, and with a sum among the summands, or a product
among the factors, replaced by its own arguments.

* `compute_perm`, `compute_regroup`: the operation on integers.
* `evalAll_of_depth_le`: a value depends on the nesting limit only as far as there has to be room.
* `eval_perm`, `eval_splice_iff`: the evaluation of a list.
-/

namespace PrefixCalc

/-! ## The operation on integers -/

namespace Operator

variable {op : Operator} {ns ms : List Int64}

/-- Sums and products combine their arguments one after another. -/
theorem exists_fold (hop : op = .add ∨ op = .mul) :
    ∃ (f : Int64 → Int64 → Int64) (unit : Int64), Std.Commutative f ∧ Std.Associative f ∧
      (∀ a, f a unit = a) ∧ ∀ ns, op.compute ns = .ok (ns.foldl f unit) := by
  rcases hop with rfl | rfl
  · exact ⟨(· + ·), 0, inferInstance, inferInstance, Int64.add_zero, fun _ => rfl⟩
  · exact ⟨(· * ·), 1, inferInstance, inferInstance, Int64.mul_one, fun _ => rfl⟩

theorem exists_compute (hop : op = .add ∨ op = .mul) (ns : List Int64) :
    ∃ n, op.compute ns = .ok n := by
  obtain ⟨f, unit, -, -, -, hfold⟩ := exists_fold hop
  exact ⟨_, hfold ns⟩

theorem compute_perm (hop : op = .add ∨ op = .mul) (h : ns.Perm ms) :
    op.compute ns = op.compute ms := by
  obtain ⟨f, unit, _, _, -, hfold⟩ := exists_fold hop
  rw [hfold, hfold, h.foldl_op_eq]

/-- The result for some of the arguments may stand for them. -/
theorem compute_regroup (hop : op = .add ∨ op = .mul) {n : Int64} (h : op.compute ms = .ok n)
    (front back : List Int64) :
    op.compute (front ++ ms ++ back) = op.compute (front ++ n :: back) := by
  obtain ⟨f, unit, _, _, hunit, hfold⟩ := exists_fold hop
  have hms : ms.foldl f (f (front.foldl f unit) unit) =
      f (front.foldl f unit) (ms.foldl f unit) := List.foldl_assoc
  rw [hfold] at h
  rw [hunit, Except.ok.inj h] at hms
  rw [hfold, hfold, List.foldl_append, List.foldl_append, List.foldl_append, List.foldl_cons, hms]

end Operator

theorem forall₂_append_left_iff {α β : Type} {R : α → β → Prop} {front back : List α}
    {bs : List β} :
    List.Forall₂ R (front ++ back) bs ↔
      ∃ cs ds, List.Forall₂ R front cs ∧ List.Forall₂ R back ds ∧ bs = cs ++ ds := by
  constructor
  · intro h
    induction front generalizing bs with
    | nil => exact ⟨[], bs, .nil, h, rfl⟩
    | cons a front ih =>
      obtain ⟨b, bs, hab, hrest, rfl⟩ := List.forall₂_cons_left_iff.mp h
      obtain ⟨cs, ds, hcs, hds, rfl⟩ := ih hrest
      exact ⟨b :: cs, ds, .cons hab hcs, hds, rfl⟩
  · rintro ⟨cs, ds, hcs, hds, rfl⟩
    exact List.rel_append hcs hds

namespace Sexp

variable {limit depth : Nat} {op : Operator} {v : Value}

/-! ## Room -/

theorem evalAll_of_forall {limit' depth' : Nat} {items : List Sexp} {values : List Value}
    (hitems : ∀ x ∈ items, ∀ v, eval limit depth x = .ok v → eval limit' depth' x = .ok v)
    (h : evalAll limit depth items = .ok values) : evalAll limit' depth' items = .ok values := by
  induction items generalizing values with
  | nil => exact h
  | cons x items ih =>
    obtain ⟨hx, hitems⟩ := List.forall_mem_cons.mp hitems
    obtain ⟨v, vs, hv, hvs, rfl⟩ := evalAll_cons_eq_ok_iff.mp h
    exact evalAll_cons_eq_ok_iff.mpr ⟨v, vs, hx v hv, ih hitems hvs, rfl⟩

/-- What has a value somewhere has it wherever there is room for it. -/
theorem eval_of_depth_le {limit' depth' : Nat} {x : Sexp} (hroom : x.depth ≤ limit' - depth')
    (h : eval limit depth x = .ok v) : eval limit' depth' x = .ok v := by
  induction x generalizing depth depth' v with
  | atom leaf => exact h
  | list items ih =>
    obtain ⟨-, op, args, values, rfl, hvalues, hcall⟩ := eval_list_eq_ok_iff.mp h
    obtain ⟨hlt, hitems⟩ := depth_list_le_iff.mp hroom
    refine eval_list_eq_ok_iff.mpr ⟨hlt, op, args, values, rfl, ?_, hcall⟩
    refine evalAll_of_forall (fun x hx v hv => ?_) hvalues
    have hmem := List.mem_cons_of_mem (.atom (.sym (.operator op))) hx
    exact ih x hmem (depthAll_le_iff.mp hitems x hmem) hv

theorem evalAll_of_depth_le {limit' depth' : Nat} {items : List Sexp} {values : List Value}
    (hroom : depthAll items ≤ limit' - depth') (h : evalAll limit depth items = .ok values) :
    evalAll limit' depth' items = .ok values :=
  evalAll_of_forall (fun x hx _ => eval_of_depth_le (depthAll_le_iff.mp hroom x hx)) h

/-! ## Lists with an operator -/

/-- The list that applies an operator to arguments. -/
abbrev application (op : Operator) (args : List Sexp) : Sexp :=
  .list (.atom (.sym (.operator op)) :: args)

/-- S-expressions are worth these integers, one each. -/
def Yields (limit depth : Nat) : List Sexp → List Int64 → Prop :=
  List.Forall₂ fun x n => eval limit depth x = .ok (.atom (.int n))

theorem evalAll_eq_ok_iff {items : List Sexp} {values : List Value} :
    evalAll limit depth items = .ok values ↔
      List.Forall₂ (fun x v => eval limit depth x = .ok v) items values := by
  induction items generalizing values with
  | nil => simp [evalAll, eq_comm]
  | cons x items ih => simp only [evalAll_cons_eq_ok_iff, List.forall₂_cons_left_iff, ih]

theorem yields_iff {items : List Sexp} {ns : List Int64} :
    Yields limit depth items ns ↔ evalAll limit depth items = .ok (Value.ofIntegers ns) := by
  rw [evalAll_eq_ok_iff, List.forall₂_map_right_iff]
  rfl

/-- The arguments of a list keep their values where there is room for the list. -/
theorem Yields.of_room {limit' depth' : Nat} {args : List Sexp} {ns : List Int64}
    (hroom : (application op args).depth ≤ limit' - depth') (h : Yields limit depth args ns) :
    Yields limit' (depth' + 1) args ns := by
  obtain ⟨-, hitems⟩ := depth_list_le_iff.mp hroom
  rw [depthAll] at hitems
  exact yields_iff.mpr (evalAll_of_depth_le (by omega) (yields_iff.mp h))

theorem eval_application_iff {args : List Sexp} :
    eval limit depth (application op args) = .ok v ↔
      depth < limit ∧ ∃ ns n, Yields limit (depth + 1) args ns ∧ op.compute ns = .ok n ∧
        v = .atom (.int n) := by
  rw [eval_list_eq_ok_iff]
  constructor
  · rintro ⟨hlt, op', args', values, hitems, hvalues, hcall⟩
    cases hitems
    rw [Operator.call_eq_ok_iff_apply, Operator.apply_eq_ok_iff] at hcall
    obtain ⟨ns, n, rfl, hn, rfl⟩ := hcall
    exact ⟨hlt, ns, n, yields_iff.mpr hvalues, hn, rfl⟩
  · rintro ⟨hlt, ns, n, hns, hn, rfl⟩
    refine ⟨hlt, op, args, _, rfl, yields_iff.mp hns, ?_⟩
    rw [Operator.call_eq_ok_iff_apply, Operator.apply_integers, hn]

/-! ## Other orders and groups -/

theorem eval_perm (hop : op = .add ∨ op = .mul) {args args' : List Sexp} (h : args.Perm args')
    (hv : eval limit depth (application op args) = .ok v) :
    eval limit depth (application op args') = .ok v := by
  obtain ⟨hlt, ns, n, hns, hn, rfl⟩ := eval_application_iff.mp hv
  obtain ⟨ms, hms, hperm⟩ := List.perm_comp_forall₂ h.symm hns
  refine eval_application_iff.mpr ⟨hlt, ms, n, hms, ?_, rfl⟩
  rw [Operator.compute_perm hop hperm, hn]

/-- A sum among the summands, or a product among the factors, may be replaced by its arguments. It
may take their place again where there is room for it. -/
theorem eval_splice_iff (hop : op = .add ∨ op = .mul) {before inner behind : List Sexp} :
    eval limit depth (application op (before ++ application op inner :: behind)) = .ok v ↔
      eval limit depth (application op (before ++ inner ++ behind)) = .ok v ∧
        depth + 1 + (application op inner).depth ≤ limit := by
  rw [eval_application_iff, eval_application_iff]
  constructor
  · rintro ⟨hlt, ns, n, hns, hn, rfl⟩
    obtain ⟨as, bs, has, hbs, rfl⟩ := forall₂_append_left_iff.mp hns
    obtain ⟨m, cs, hm, hcs, rfl⟩ := List.forall₂_cons_left_iff.mp hbs
    have hinner := (wellFormed_of_eval hm).1
    have hroom : (application op inner).depth ≤ limit - depth := by omega
    obtain ⟨-, is, m, his, hm, hint⟩ := eval_application_iff.mp hm
    cases hint
    refine ⟨⟨hlt, as ++ is ++ cs, n, ?_, ?_, rfl⟩, by omega⟩
    · exact List.rel_append (List.rel_append has (his.of_room hroom)) hcs
    · rw [Operator.compute_regroup hop hm, hn]
  · rintro ⟨⟨hlt, ns, n, hns, hn, rfl⟩, hroom⟩
    obtain ⟨bs, cs, hbs, hcs, rfl⟩ := forall₂_append_left_iff.mp hns
    obtain ⟨as, is, has, his, rfl⟩ := forall₂_append_left_iff.mp hbs
    obtain ⟨m, hm⟩ := Operator.exists_compute hop is
    have hinner := Nat.le_sub_of_add_le' hroom
    have hnested : eval limit (depth + 1) (application op inner) = .ok (.atom (.int m)) :=
      eval_application_iff.mpr
        ⟨(depth_list_le_iff.mp hinner).1, is, m, Yields.of_room hinner his, hm, rfl⟩
    refine ⟨hlt, as ++ m :: cs, n, List.rel_append has (.cons hnested hcs), ?_, rfl⟩
    rw [← Operator.compute_regroup hop hm, hn]

/-- A sum or a product has a value exactly if it has this value with its arguments in any other
order. With a sum among its summands, or a product among its factors, it has a value exactly if it
has this value with the arguments of the inner one in its place and the inner one is within the
limit where it stands. The arguments may be anything. -/
theorem eval_regrouping (hop : op = .add ∨ op = .mul) (limit depth : Nat) (v : Value) :
    (∀ args args' : List Sexp, args.Perm args' →
      (eval limit depth (application op args) = .ok v ↔
        eval limit depth (application op args') = .ok v)) ∧
    ∀ before inner behind : List Sexp,
      eval limit depth (application op (before ++ application op inner :: behind)) = .ok v ↔
        eval limit depth (application op (before ++ inner ++ behind)) = .ok v ∧
          depth + 1 + (application op inner).depth ≤ limit := by
  refine ⟨fun args args' h => ⟨eval_perm hop h, eval_perm hop h.symm⟩, ?_⟩
  intro before inner behind
  exact eval_splice_iff hop

/-- The sum leaves the 64 bits, and a quotient is among the inner summands. One level less is enough
only if these are spliced. -/
theorem eval_regrouping_quotient :
    ∃ (quotient inner : Sexp) (v : Value),
      quotient = application .div [.atom (.int 7), .atom (.int 2)] ∧
      inner = application .add [.atom (.int 1), quotient] ∧
      eval 3 0 (application .add [.atom (.int Int64.maxValue), inner]) = .ok v ∧
      eval 3 0 (application .add [inner, .atom (.int Int64.maxValue)]) = .ok v ∧
      eval 2 0 (application .add [.atom (.int Int64.maxValue), .atom (.int 1), quotient]) = .ok v ∧
      eval 2 0 (application .add [.atom (.int Int64.maxValue), inner]) ≠ .ok v := by
  let quotient := application .div [.atom (.int 7), .atom (.int 2)]
  let inner := application .add [.atom (.int 1), quotient]
  let v : Value := .atom (.int (Int64.minValue + 3))
  have hperm := (eval_regrouping (.inl rfl) 3 0 v).1
  have hsplice := (eval_regrouping (.inl rfl) 2 0 v).2
  have hnested : eval 3 0 (application .add [.atom (.int Int64.maxValue), inner]) = .ok v := by
    decide
  refine ⟨quotient, inner, v, rfl, rfl, hnested, (hperm _ _ (.swap ..)).mp hnested, by decide, ?_⟩
  intro hdeep
  have hroom := ((hsplice [.atom (.int Int64.maxValue)] [.atom (.int 1), quotient] []).mp hdeep).2
  exact absurd hroom (by decide)

end Sexp
end PrefixCalc
