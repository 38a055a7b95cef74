import PrefixCalc.Eval.WellFormed
import PrefixCalc.Proofs.Eval.Steps
import PrefixCalc.Proofs.Operation.Calls

/-!
# PrefixCalc.Proofs.Eval.WellFormed

Soundness and completeness of the form of programs.

* `eval_comes`: an S-expression of the right form has a value, which is an integer if it can stand
  as an argument, or its evaluation ends in a division by zero.
* `wellFormed_of_eval`: an S-expression that has a value is of the right form.
-/

namespace PrefixCalc

theorem Program.HasQuotient.of_mem {x : Sexp} {items : List Sexp} (hx : x ∈ items)
    (h : HasQuotient [x]) : HasQuotient items := by
  obtain ⟨args, hargs⟩ := h
  obtain ⟨y, hy, hmem⟩ := Sexp.mem_listsAll_iff.mp hargs
  rw [List.mem_singleton.mp hy] at hmem
  exact ⟨args, Sexp.mem_listsAll_iff.mpr ⟨x, hx, hmem⟩⟩

theorem Program.HasQuotient.list {items : List Sexp} (h : HasQuotient items) :
    HasQuotient [.list items] := by
  obtain ⟨args, hargs⟩ := h
  exact ⟨args, Sexp.mem_listsAll_iff.mpr ⟨_, List.mem_singleton_self _, List.mem_cons_of_mem _ hargs⟩⟩

namespace Sexp

variable {limit depth : Nat}

/-- What evaluation comes to: a result with a property or, if there is a quotient to work out, a
division by zero. -/
def Comes {α : Type} (quotient : Prop) (P : α → Prop) : Except EvalError α → Prop
  | .ok a => P a
  | .error e => e = .divisionByZero ∧ quotient

/-- An argument is worth an integer. -/
def Suits (x : Sexp) (v : Value) : Prop :=
  IsOperand x → ∃ n, v = .atom (.int n)

theorem comes_call {op : Operator} {quotient : Prop} {ns : List Int64} (x : Sexp)
    (hcount : op.arity.allows ns.length = true) (hdiv : op = .div → quotient) :
    Comes quotient (Suits x) (op.primitive.call (Value.ofIntegers ns)) := by
  rw [Operator.call_integers hcount]
  rcases Operator.compute_cases hcount with ⟨n, hn⟩ | ⟨rfl, hz⟩
  · rw [hn]
    exact fun _ => ⟨n, rfl⟩
  · rw [hz]
    exact ⟨rfl, hdiv rfl⟩

theorem evalAll_comes {items : List Sexp}
    (h : ∀ x ∈ items, Comes (Program.HasQuotient [x]) (Suits x) (eval limit depth x)) :
    Comes (Program.HasQuotient items)
      (fun values => (∀ x ∈ items, IsOperand x) →
        ∃ ns : List Int64, values = Value.ofIntegers ns)
      (evalAll limit depth items) := by
  induction items with
  | nil => exact fun _ => ⟨[], rfl⟩
  | cons x items ih =>
    obtain ⟨hx, hitems⟩ := List.forall_mem_cons.mp h
    have hrest := ih hitems
    rw [evalAll]
    cases hv : eval limit depth x with
    | error e =>
      rw [hv] at hx
      exact ⟨hx.1, hx.2.of_mem (List.mem_cons_self ..)⟩
    | ok v =>
      cases hvs : evalAll limit depth items with
      | error e =>
        rw [hvs] at hrest
        obtain ⟨args, hargs⟩ := hrest.2
        exact ⟨hrest.1, args, List.mem_append_right _ hargs⟩
      | ok vs =>
        rw [hv] at hx
        rw [hvs] at hrest
        intro hop
        obtain ⟨hop, hops⟩ := List.forall_mem_cons.mp hop
        obtain ⟨n, rfl⟩ := hx hop
        obtain ⟨ns, rfl⟩ := hrest hops
        exact ⟨n :: ns, rfl⟩

/-- An S-expression of the right form has a value, unless a division by zero comes up. -/
theorem eval_comes {x : Sexp} (hdepth : x.depth ≤ limit - depth)
    (hcalls : ∀ l ∈ x.lists, IsCall l) :
    Comes (Program.HasQuotient [x]) (Suits x) (eval limit depth x) := by
  induction x generalizing depth with
  | atom leaf =>
    intro hop
    cases leaf with
    | int n => exact ⟨n, rfl⟩
    | _ => exact hop.elim
  | list items ih =>
    obtain ⟨hlt, hitems⟩ := depth_list_le_iff.mp hdepth
    obtain ⟨hcall, hinner⟩ := List.forall_mem_cons.mp hcalls
    obtain ⟨op, args, rfl, hcount, hops⟩ := isCall_iff.mp hcall
    have hx : ∀ x ∈ args,
        Comes (Program.HasQuotient [x]) (Suits x) (eval limit (depth + 1) x) := by
      intro x hx
      have hmem := List.mem_cons_of_mem (.atom (.sym (.operator op))) hx
      exact ih x hmem (depthAll_le_iff.mp hitems x hmem) fun l hl =>
        hinner l (mem_listsAll_iff.mpr ⟨x, hmem, hl⟩)
    have hargs := evalAll_comes hx
    have hlt : depth < limit := by omega
    rw [eval_cons_of_lt hlt]
    cases hvalues : evalAll limit (depth + 1) args with
    | error e =>
      rw [hvalues] at hargs
      obtain ⟨he, inner, hinner⟩ := hargs
      exact ⟨he, inner, by simp [listsAll, lists, hinner]⟩
    | ok values =>
      rw [hvalues] at hargs
      obtain ⟨ns, rfl⟩ := hargs hops
      have hlen := length_of_evalAll hvalues
      rw [List.length_map] at hlen
      have hallows : op.arity.allows ns.length = true :=
        Operator.allows_arity_iff.mpr (by rwa [hlen])
      refine comes_call _ hallows ?_
      rintro rfl
      exact ⟨args, by simp [listsAll, lists]⟩

theorem isOperand_of_eval {x : Sexp} {n : Int64}
    (h : eval limit depth x = .ok (.atom (.int n))) : IsOperand x := by
  cases x with
  | atom leaf =>
    cases h
    trivial
  | list items => trivial

/-- An S-expression that has a value is of the right form, and so is all that stands in it. -/
theorem wellFormed_of_eval {x : Sexp} {v : Value} (h : eval limit depth x = .ok v) :
    x.depth ≤ limit - depth ∧ ∀ l ∈ x.lists, IsCall l := by
  induction x generalizing depth v with
  | atom leaf => exact ⟨Nat.zero_le _, by simp [lists]⟩
  | list items ih =>
    obtain ⟨hlt, op, args, values, rfl, hvalues, hcall⟩ := eval_list_eq_ok_iff.mp h
    obtain ⟨hallows, ns, n, rfl, -, -⟩ := Operator.call_eq_ok_iff.mp hcall
    rw [length_of_evalAll hvalues] at hallows
    have hargs : ∀ x ∈ args,
        IsOperand x ∧ x.depth ≤ limit - (depth + 1) ∧ ∀ l ∈ x.lists, IsCall l := by
      intro x hx
      obtain ⟨w, hw, hxw⟩ := exists_value_of_mem hvalues hx
      obtain ⟨m, -, rfl⟩ := List.mem_map.mp hw
      exact ⟨isOperand_of_eval hxw, ih x (List.mem_cons_of_mem _ hx) hxw⟩
    refine ⟨depth_list_le_iff.mpr ⟨hlt, depthAll_le_iff.mpr ?_⟩, ?_⟩
    · exact List.forall_mem_cons.mpr ⟨Nat.zero_le _, fun x hx => (hargs x hx).2.1⟩
    · intro l hl
      rcases List.mem_cons.mp hl with rfl | hl
      · exact isCall_iff.mpr
          ⟨op, args, rfl, Operator.allows_arity_iff.mp hallows, fun x hx => (hargs x hx).1⟩
      · obtain ⟨x, hx, hxl⟩ := mem_listsAll_iff.mp hl
        rcases List.mem_cons.mp hx with rfl | hx
        · cases hxl
        · exact (hargs x hx).2.2 l hxl

end Sexp

namespace Program

variable {limit : Nat} {program : Program}

theorem comes_of_wellFormed (h : program.WellFormed limit) :
    Sexp.Comes program.HasQuotient (fun _ => True) (program.eval limit) := by
  obtain ⟨hdepth, hcalls⟩ := h
  have hx : ∀ x ∈ program,
      Sexp.Comes (HasQuotient [x]) (Sexp.Suits x) (Sexp.eval limit 0 x) := by
    intro x hx
    exact Sexp.eval_comes (Sexp.depthAll_le_iff.mp hdepth x hx) fun l hl =>
      hcalls l (Sexp.mem_listsAll_iff.mpr ⟨x, hx, hl⟩)
  have hall := Sexp.evalAll_comes hx
  unfold eval
  cases hvalues : Sexp.evalAll limit 0 program with
  | error e => rwa [hvalues] at hall
  | ok values => trivial

theorem wellFormed_of_eval {v : Value} (h : program.eval limit = .ok v) :
    program.WellFormed limit := by
  obtain ⟨values, hvalues, -⟩ := eval_eq_ok_iff.mp h
  have hx : ∀ x ∈ program, x.depth ≤ limit ∧ ∀ l ∈ x.lists, IsCall l := by
    intro x hx
    obtain ⟨w, -, hw⟩ := Sexp.exists_value_of_mem hvalues hx
    exact Sexp.wellFormed_of_eval hw
  refine ⟨Sexp.depthAll_le_iff.mpr fun x hmem => (hx x hmem).1, ?_⟩
  intro l hl
  obtain ⟨x, hmem, hxl⟩ := Sexp.mem_listsAll_iff.mp hl
  exact (hx x hmem).2 l hxl

/-- A program of the right form has a value, unless there is a quotient in it and a division by
zero comes up; a program that is not of this form has none. -/
theorem eval_wellFormed (limit : Nat) (program : Program) :
    (program.WellFormed limit →
      (∃ v, program.eval limit = .ok v) ∨ program.eval limit = .error .divisionByZero) ∧
    (program.WellFormed limit → ¬ program.HasQuotient → ∃ v, program.eval limit = .ok v) ∧
    (¬ program.WellFormed limit → ∃ e, program.eval limit = .error e) := by
  refine ⟨fun h => ?_, fun h hq => ?_, fun h => ?_⟩
  · have hcomes := comes_of_wellFormed h
    cases hr : program.eval limit with
    | ok v => exact .inl ⟨v, rfl⟩
    | error e =>
      rw [hr] at hcomes
      exact .inr (by rw [hcomes.1])
  · have hcomes := comes_of_wellFormed h
    cases hr : program.eval limit with
    | ok v => exact ⟨v, rfl⟩
    | error e =>
      rw [hr] at hcomes
      exact absurd hcomes.2 hq
  · cases hr : program.eval limit with
    | ok v => exact absurd (wellFormed_of_eval hr) h
    | error e => exact ⟨e, rfl⟩

/-- Two levels, and no quotient: one limit suffices, the one below does not. -/
theorem eval_wellFormed_nested :
    ∃ program : Program, program.WellFormed 2 ∧ ¬ program.HasQuotient ∧
      ¬ program.WellFormed 1 ∧ (∃ v, program.eval 2 = .ok v) ∧ ∃ e, program.eval 1 = .error e := by
  let program : Program := [.list [.atom (.sym (.operator .sub)), .atom (.int 7),
    .list [.atom (.sym (.operator .mul))]]]
  have hwf : program.WellFormed 2 := by
    refine ⟨by decide, ?_⟩
    simp [program, Sexp.listsAll, Sexp.lists, IsCall, IsOperand]
  have hq : ¬ program.HasQuotient := by
    rintro ⟨args, hargs⟩
    simp [program, Sexp.listsAll, Sexp.lists] at hargs
  have hdeep : ¬ program.WellFormed 1 := fun h => absurd h.1 (by decide)
  exact ⟨program, hwf, hq, hdeep, (eval_wellFormed 2 program).2.1 hwf hq,
    (eval_wellFormed 1 program).2.2 hdeep⟩

end Program
end PrefixCalc
