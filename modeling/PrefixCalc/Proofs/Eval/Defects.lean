import PrefixCalc.Eval.WellFormed
import PrefixCalc.Proofs.Atom.Readable
import PrefixCalc.Proofs.Eval.Values
import PrefixCalc.Proofs.Operation.Failures

/-!
# PrefixCalc.Proofs.Eval.Defects

An error of evaluation is about a list of the program that shows it.

* `defect_of_call`: the errors of a call are about the arguments as they are written.
* `exists_defect`, `Program.exists_defect`: all errors, unless the program nests too deep. The atoms
  have to be readable, since a name with the text of an operator looks like that operator.
-/

namespace PrefixCalc

/-- A readable head that is no operator does not look like one. -/
theorem Sexp.text_ne_operator {head : Sexp} (hreadable : ∀ leaf ∈ head.leaves, leaf.Readable)
    (hop : ∀ op, head ≠ .atom (.sym (.operator op))) (op : Operator) : head.text ≠ op.text := by
  intro htext
  cases head with
  | atom leaf =>
    have hleaf : leaf.Readable := hreadable leaf (List.mem_singleton_self _)
    have hback : Atom.ofToken op.text = .ok leaf := by
      rw [← htext]
      exact (readable_iff.mp hleaf).1.1
    have hsym : Atom.ofToken op.text = .ok (.sym (.operator op)) := ofToken_operator op
    cases hback.symm.trans hsym
    exact hop op rfl
  | list items =>
    have hparen : '(' ∈ op.text.toList := by
      rw [← htext]
      simp [text, String.toList_append]
    exact absurd (isPlain_operator op '(' hparen) (by decide)

namespace Sexp

variable {limit depth : Nat}

theorem defect_of_call {op : Operator} {args : List Sexp} {values : List Value} {e : EvalError}
    (hvalues : evalAll limit depth args = .ok values)
    (h : op.primitive.call values = .error e) :
    Defect (.atom (.sym (.operator op)) :: args) e := by
  have hlen := length_of_evalAll hvalues
  rcases Operator.error_of_call h with ⟨hcount, rfl⟩ | ⟨v, hv, hint, rfl⟩ | ⟨rfl, hcount, rfl⟩
  · have hop : (op = .sub ∨ op = .div) ∧ args.length ≠ 2 := by
      rw [← Bool.not_eq_true, Operator.allows_arity_iff, hlen] at hcount
      simpa using hcount
    have harity : op.arity = .exactly 2 := by
      rcases hop.1 with rfl | rfl <;> rfl
    rw [harity, hlen]
    exact .count hop.1 hop.2
  · obtain ⟨x, hx, hxv⟩ := exists_mem_of_value hvalues hv
    rcases eval_cases hxv with ⟨leaf, rfl, rfl⟩ | ⟨n, rfl⟩
    · refine .argument hx ?_
      rintro n rfl
      cases hint
    · cases hint
  · rw [Operator.allows_arity_iff, hlen] at hcount
    obtain ⟨x, y, rfl⟩ := List.length_eq_two.mp (hcount (.inr rfl))
    exact .quotient

theorem exists_defect {x : Sexp} {e : EvalError} (hreadable : ∀ leaf ∈ x.leaves, leaf.Readable)
    (hdeep : ∀ n, e ≠ .nestingTooDeep n) (h : eval limit depth x = .error e) :
    ∃ items ∈ x.lists, Defect items e := by
  induction x generalizing depth with
  | atom leaf => cases h
  | list items ih =>
    have hleaves : ∀ x ∈ items, ∀ leaf ∈ x.leaves, leaf.Readable := fun x hx leaf hleaf =>
      hreadable leaf (mem_leavesAll_iff.mpr ⟨x, hx, hleaf⟩)
    cases listError_of_eval h with
    | tooDeep _ => exact absurd rfl (hdeep limit)
    | empty _ => exact ⟨[], List.mem_cons_self .., .empty⟩
    | @argument head args _ _ hargs =>
      obtain ⟨x, hx, hxe⟩ := exists_error_of_evalAll hargs
      have hmem := List.mem_cons_of_mem head hx
      obtain ⟨inner, hinner, hdefect⟩ := ih x hmem (hleaves x hmem) hxe
      exact ⟨inner, List.mem_cons_of_mem _ (mem_listsAll_iff.mpr ⟨x, hmem, hinner⟩), hdefect⟩
    | @head head args _ _ _ hop =>
      have hhead := hleaves head (List.mem_cons_self ..)
      exact ⟨_, List.mem_cons_self .., .head (text_ne_operator hhead hop)⟩
    | call _ hvalues hcall => exact ⟨_, List.mem_cons_self .., defect_of_call hvalues hcall⟩

end Sexp

theorem Program.exists_defect {limit : Nat} {program : Program} {e : EvalError}
    (hreadable : program.Readable) (hdeep : ∀ n, e ≠ .nestingTooDeep n)
    (h : program.eval limit = .error e) : ∃ items ∈ Sexp.listsAll program, Defect items e := by
  unfold eval at h
  split at h
  · rename_i e' hall
    cases h
    obtain ⟨x, hx, hxe⟩ := Sexp.exists_error_of_evalAll hall
    have hleaves : ∀ leaf ∈ x.leaves, leaf.Readable := fun leaf hleaf =>
      hreadable leaf (Sexp.mem_leavesAll_iff.mpr ⟨x, hx, hleaf⟩)
    obtain ⟨items, hitems, hdefect⟩ := Sexp.exists_defect hleaves hdeep hxe
    exact ⟨items, Sexp.mem_listsAll_iff.mpr ⟨x, hx, hitems⟩, hdefect⟩
  · cases h

end PrefixCalc
