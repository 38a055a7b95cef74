import PrefixCalc.Proofs.Eval.WellFormed
import PrefixCalc.Proofs.Operation.Exact

/-!
# PrefixCalc.Proofs.Eval.Exact

Evaluation of sums, products and differences, at any nesting, against exact integer arithmetic.

* `exists_overInt?`: an operand of the right form without a quotient denotes an integer.
* `eval_of_overInt?`: what denotes an integer is worth that integer, reduced once.
-/

namespace PrefixCalc
namespace Sexp

variable {limit depth : Nat}

/-! ## What denotes an integer -/

theorem overInt?_list_eq_some_iff {items : List Sexp} {z : Int} :
    overInt? (.list items) = some z ↔
      ∃ op args zs, items = .atom (.sym (.operator op)) :: args ∧ op ≠ .div ∧
        overIntAll? args = some zs ∧ op.overInt? zs = some z := by
  constructor
  · intro h
    unfold overInt? at h
    split at h
    · rename_i heq
      cases heq
    · cases h
    · rename_i op args heq
      cases heq
      split at h
      · cases h
      · rename_i hop
        split at h
        · cases h
        · rename_i zs hzs
          exact ⟨op, args, zs, rfl, hop, hzs, h⟩
    · cases h
  · rintro ⟨op, args, zs, rfl, hop, hzs, h⟩
    simp [overInt?, hop, hzs, h]

theorem overIntAll?_cons_eq_some_iff {x : Sexp} {items : List Sexp} {zs : List Int} :
    overIntAll? (x :: items) = some zs ↔
      ∃ z zs', x.overInt? = some z ∧ overIntAll? items = some zs' ∧ zs = z :: zs' := by
  constructor
  · intro h
    unfold overIntAll? at h
    split at h
    · rename_i z zs' hz hzs
      cases h
      exact ⟨z, zs', hz, hzs, rfl⟩
    · cases h
  · rintro ⟨z, zs', hz, hzs, rfl⟩
    simp [overIntAll?, hz, hzs]

theorem exists_overIntAll? {items : List Sexp} (h : ∀ x ∈ items, ∃ z, x.overInt? = some z) :
    ∃ zs, overIntAll? items = some zs ∧ zs.length = items.length := by
  induction items with
  | nil => exact ⟨[], rfl, rfl⟩
  | cons x items ih =>
    obtain ⟨⟨z, hz⟩, hitems⟩ := List.forall_mem_cons.mp h
    obtain ⟨zs, hzs, hlen⟩ := ih hitems
    refine ⟨z :: zs, overIntAll?_cons_eq_some_iff.mpr ⟨z, zs, hz, hzs, rfl⟩, ?_⟩
    rw [List.length_cons, List.length_cons, hlen]

theorem exists_overInt? {x : Sexp} (hoperand : IsOperand x) (hcalls : ∀ l ∈ x.lists, IsCall l)
    (hquotient : ¬ Program.HasQuotient [x]) : ∃ z, x.overInt? = some z := by
  induction x with
  | atom leaf =>
    cases leaf with
    | int n => exact ⟨n.toInt, rfl⟩
    | _ => exact hoperand.elim
  | list items ih =>
    obtain ⟨hcall, hinner⟩ := List.forall_mem_cons.mp hcalls
    obtain ⟨op, args, rfl, hcount, hoperands⟩ := isCall_iff.mp hcall
    have hargs : ∀ x ∈ args, ∃ z, x.overInt? = some z := by
      intro x hx
      have hmem := List.mem_cons_of_mem (.atom (.sym (.operator op))) hx
      refine ih x hmem (hoperands x hx) ?_ ?_
      · exact fun l hl => hinner l (mem_listsAll_iff.mpr ⟨x, hmem, hl⟩)
      · exact fun hq => hquotient (hq.of_mem hmem).list
    obtain ⟨zs, hzs, hlen⟩ := exists_overIntAll? hargs
    have hop : op ≠ .div := by
      rintro rfl
      exact hquotient ⟨args, by simp [listsAll, lists]⟩
    have hallows : op.arity.allows zs.length = true :=
      Operator.allows_arity_iff.mpr (by rwa [hlen])
    obtain ⟨z, hz⟩ := (Operator.exists_overInt?_iff hop).mpr hallows
    exact ⟨z, overInt?_list_eq_some_iff.mpr ⟨op, args, zs, rfl, hop, hzs, hz⟩⟩

/-! ## What it is worth -/

theorem evalAll_of_overIntAll? {items : List Sexp} {zs : List Int}
    (hitems : ∀ x ∈ items, ∀ z, x.overInt? = some z →
      eval limit depth x = .ok (.atom (.int (.ofInt z))))
    (h : overIntAll? items = some zs) :
    evalAll limit depth items = .ok (Value.ofIntegers (zs.map Int64.ofInt)) := by
  induction items generalizing zs with
  | nil =>
    cases h
    rfl
  | cons x items ih =>
    obtain ⟨hx, hitems⟩ := List.forall_mem_cons.mp hitems
    obtain ⟨z, zs, hz, hzs, rfl⟩ := overIntAll?_cons_eq_some_iff.mp h
    exact evalAll_cons_eq_ok_iff.mpr ⟨_, _, hx z hz, ih hitems hzs, rfl⟩

theorem eval_of_overInt? {x : Sexp} {z : Int} (hdepth : x.depth ≤ limit - depth)
    (h : x.overInt? = some z) : eval limit depth x = .ok (.atom (.int (.ofInt z))) := by
  induction x generalizing depth z with
  | atom leaf =>
    cases leaf with
    | int n =>
      cases h
      rw [eval, Int64.ofInt_toInt]
    | _ => cases h
  | list items ih =>
    obtain ⟨hlt, hitems⟩ := depth_list_le_iff.mp hdepth
    obtain ⟨op, args, zs, rfl, hop, hzs, hz⟩ := overInt?_list_eq_some_iff.mp h
    have hargs : ∀ x ∈ args, ∀ z, x.overInt? = some z →
        eval limit (depth + 1) x = .ok (.atom (.int (.ofInt z))) := by
      intro x hx z
      have hmem := List.mem_cons_of_mem (.atom (.sym (.operator op))) hx
      exact ih x hmem (depthAll_le_iff.mp hitems x hmem)
    exact eval_list_eq_ok_iff.mpr
      ⟨hlt, op, args, _, rfl, evalAll_of_overIntAll? hargs hzs, Operator.call_ofInt hop hz⟩

/-- The sums and products of any number of operands and the differences of two, built from integers
and nested as deep as the limit allows, come to one 64-bit integer: the only one that is congruent
modulo `2 ^ 64` to the exact result. -/
theorem eval_exact {x : Sexp} (hform : Program.WellFormed (limit - depth) [x])
    (hquotient : ¬ Program.HasQuotient [x]) (hoperand : IsOperand x) :
    ∃ (z : Int) (n : Int64), x.overInt? = some z ∧ n.toInt ≡ z [ZMOD 2 ^ 64] ∧
      (∀ m : Int64, m.toInt ≡ z [ZMOD 2 ^ 64] → m = n) ∧
      eval limit depth x = .ok (.atom (.int n)) ∧ Program.eval limit [x] = .ok (.atom (.int n)) := by
  obtain ⟨hdepth, hcalls⟩ := hform
  have hx : x.depth ≤ limit - depth := depthAll_le_iff.mp hdepth x (List.mem_singleton_self x)
  have hlists : ∀ l ∈ x.lists, IsCall l := fun l hl =>
    hcalls l (mem_listsAll_iff.mpr ⟨x, List.mem_singleton_self x, hl⟩)
  obtain ⟨z, hz⟩ := exists_overInt? hoperand hlists hquotient
  refine ⟨z, .ofInt z, hz, toInt_modEq_iff.mpr rfl, fun m hm => toInt_modEq_iff.mp hm,
    eval_of_overInt? hx hz, ?_⟩
  have htop : eval limit 0 x = .ok (.atom (.int (.ofInt z))) := eval_of_overInt? (by omega) hz
  exact Program.eval_eq_ok_iff.mpr
    ⟨_, evalAll_cons_eq_ok_iff.mpr ⟨_, [], htop, rfl, rfl⟩, rfl⟩

/-- The sum leaves the 64 bits and the product leaves them once more. -/
theorem eval_exact_wrapped :
    ∃ x : Sexp, Program.WellFormed 2 [x] ∧ ¬ Program.HasQuotient [x] ∧ IsOperand x ∧
      x.overInt? = some (-27670116110564327424) ∧
      Program.eval 2 [x] = .ok (.atom (.int Int64.minValue)) := by
  let sum : Sexp := .list [.atom (.sym (.operator .add)), .atom (.int Int64.maxValue),
    .atom (.int 1)]
  let difference : Sexp := .list [.atom (.sym (.operator .sub)), .atom (.int 0), .atom (.int 3)]
  let x : Sexp := .list [.atom (.sym (.operator .mul)), sum, difference]
  have hform : Program.WellFormed (2 - 0) [x] := by
    refine ⟨by decide, ?_⟩
    simp [x, sum, difference, listsAll, lists, IsCall, IsOperand]
  have hquotient : ¬ Program.HasQuotient [x] := by
    rintro ⟨args, hargs⟩
    simp [x, sum, difference, listsAll, lists] at hargs
  obtain ⟨z, n, hz, -, hunique, -, heval⟩ := eval_exact hform hquotient trivial
  have hz' : x.overInt? = some (-27670116110564327424) := by decide
  obtain rfl := Option.some.inj (hz'.symm.trans hz)
  obtain rfl := hunique Int64.minValue (by decide)
  exact ⟨x, hform, hquotient, trivial, hz', heval⟩

end Sexp
end PrefixCalc
