import PrefixCalc.Operation.Basic
import PrefixCalc.Sexp.Parts
import PrefixCalc.Sexp.Text

/-!
# PrefixCalc.Eval.WellFormed

Programs that can be seen to have a value, unless a divisor turns out to be zero: the form of each
list is right, and they do not nest too deep. And what can be seen to be wrong with a list, with the
error that says so. Only the division by zero cannot be seen: there is a quotient, and its divisor
may have to be worked out.
-/

namespace PrefixCalc

/-! ## Right forms -/

/-- An argument that is an integer or has to be worked out. -/
def IsOperand : Sexp → Prop
  | .atom (.int _) => True
  | .atom _ => False
  | .list _ => True

/-- A list of the right form: an operator, and operands, two of them for a difference or a
quotient. -/
def IsCall : List Sexp → Prop
  | .atom (.sym (.operator op)) :: args =>
    (op = .sub ∨ op = .div → args.length = 2) ∧ ∀ x ∈ args, IsOperand x
  | _ => False

theorem isCall_iff {items : List Sexp} :
    IsCall items ↔ ∃ op args, items = .atom (.sym (.operator op)) :: args ∧
      (op = .sub ∨ op = .div → args.length = 2) ∧ ∀ x ∈ args, IsOperand x := by
  constructor
  · intro h
    unfold IsCall at h
    split at h
    · rename_i op args
      exact ⟨op, args, rfl, h⟩
    · exact h.elim
  · rintro ⟨op, args, rfl, h⟩
    exact h

namespace Program

/-- All lists of the program have the right form, and none stands too deep. -/
def WellFormed (limit : Nat) (program : Program) : Prop :=
  program.depth ≤ limit ∧ ∀ l ∈ Sexp.listsAll program, IsCall l

/-- Some list of the program is a quotient. -/
def HasQuotient (program : Program) : Prop :=
  ∃ args, .atom (.sym (.operator .div)) :: args ∈ Sexp.listsAll program

end Program

/-! ## Defects -/

/-- A list, given by its items, that is wrong in the way that an error says. -/
inductive Defect : List Sexp → EvalError → Prop where
  | empty : Defect [] .missingOperator
  | head {head : Sexp} {args : List Sexp} :
      (∀ op : Operator, head.text ≠ op.text) → Defect (head :: args) (.unknownOperator head.text)
  | count {op : Operator} {args : List Sexp} :
      op = .sub ∨ op = .div → args.length ≠ 2 →
        Defect (.atom (.sym (.operator op)) :: args) (.wrongCount op (.exactly 2) args.length)
  | argument {op : Operator} {args : List Sexp} {leaf : Atom} :
      .atom leaf ∈ args → (∀ n, leaf ≠ .int n) →
        Defect (.atom (.sym (.operator op)) :: args) (.notInteger (.atom leaf))
  | quotient {x y : Sexp} : Defect [.atom (.sym (.operator .div)), x, y] .divisionByZero

end PrefixCalc
