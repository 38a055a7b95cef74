import PrefixCalc.Atom.Basic

/-!
# PrefixCalc.Operation.Basic

The four operations, on the values of their arguments, and how many of these each of them takes.
Integers have 64 bits, and a result that does not fit is reduced modulo `2 ^ 64`; a quotient is
rounded toward zero. Evaluation can fail in the ways that `EvalError` lists.
-/

namespace PrefixCalc

/-! ## Arities -/

/-- A set of argument counts. -/
inductive Arity where
  /-- The counts from `least` to `most`, both included; none if `most` is the smaller one. -/
  | between (least most : Nat)
  /-- The counts from `least` on. -/
  | atLeast (least : Nat)
  deriving DecidableEq, Repr

namespace Arity

def exactly (count : Nat) : Arity :=
  .between count count

def allows : Arity → Nat → Bool
  | .between least most, count => least ≤ count && count ≤ most
  | .atLeast least, count => least ≤ count

/-- The arity in words, by its least count. -/
def text : Arity → String
  | .between least _ => "exactly " ++ toString least
  | .atLeast least => "at least " ++ toString least

theorem allows_exactly_iff {n count : Nat} : (exactly n).allows count = true ↔ count = n := by
  simp only [exactly, allows, Bool.and_eq_true, decide_eq_true_eq]
  omega

theorem allows_atLeast_iff {n count : Nat} : (atLeast n).allows count = true ↔ n ≤ count := by
  simp only [allows, decide_eq_true_eq]

end Arity

/-! ## Operations -/

inductive EvalError where
  /-- The head of a list, of this text, is no operator. -/
  | unknownOperator (head : String)
  /-- A list has no head. -/
  | missingOperator
  | wrongCount (op : Operator) (expected : Arity) (got : Nat)
  | divisionByZero
  | notInteger (value : Value)
  /-- More lists stand inside each other than the limit allows. -/
  | nestingTooDeep (limit : Nat)
  deriving DecidableEq, Repr

namespace Operator

def arity : Operator → Arity
  | .add => .atLeast 0
  | .sub => .exactly 2
  | .mul => .atLeast 0
  | .div => .exactly 2

def compute : Operator → List Int64 → Except EvalError Int64
  | .add, ns => .ok (ns.foldl (· + ·) 0)
  | .mul, ns => .ok (ns.foldl (· * ·) 1)
  | .sub, [a, b] => .ok (a - b)
  | .div, [a, b] => if b = 0 then .error .divisionByZero else .ok (a / b)
  | .sub, ns => .error (.wrongCount .sub Operator.sub.arity ns.length)
  | .div, ns => .error (.wrongCount .div Operator.div.arity ns.length)

end Operator

namespace Value

/-- The integers that values are, or the error for the first that is none. -/
def integers : List Value → Except EvalError (List Int64)
  | [] => .ok []
  | value :: rest =>
    match value.int? with
    | none => .error (.notInteger value)
    | some n =>
      match integers rest with
      | .error e => .error e
      | .ok ns => .ok (n :: ns)

/-- Integers as values. -/
abbrev ofIntegers (ns : List Int64) : List Value :=
  ns.map fun n => .atom (.int n)

theorem integers_ofIntegers (ns : List Int64) : integers (ofIntegers ns) = .ok ns := by
  induction ns with
  | nil => rfl
  | cons n ns ih =>
    rw [ofIntegers, List.map_cons, integers, ← ofIntegers, ih]
    rfl

theorem eq_ofIntegers {values : List Value} {ns : List Int64} (h : integers values = .ok ns) :
    values = ofIntegers ns := by
  induction values generalizing ns with
  | nil =>
    cases h
    rfl
  | cons value rest ih =>
    unfold integers at h
    split at h
    · cases h
    · rename_i n hvalue
      split at h
      · cases h
      · rename_i ms hrest
        cases h
        rw [int?_eq_some_iff.mp hvalue, ih hrest]
        rfl

/-- Values have integers exactly if they are integers. -/
theorem integers_eq_ok_iff {values : List Value} {ns : List Int64} :
    integers values = .ok ns ↔ values = ofIntegers ns := by
  constructor
  · exact eq_ofIntegers
  · rintro rfl
    exact integers_ofIntegers ns

end Value

/-- An operator together with the argument counts that a call admits. -/
structure Primitive where
  op : Operator
  arity : Arity
  deriving DecidableEq, Repr

namespace Operator

def primitive (op : Operator) : Primitive :=
  ⟨op, op.arity⟩

/-- Apply the operator. The arguments have to be integers before their number matters. -/
def apply (op : Operator) (values : List Value) : Except EvalError Value :=
  match Value.integers values with
  | .error e => .error e
  | .ok ns =>
    match op.compute ns with
    | .error e => .error e
    | .ok n => .ok (.atom (.int n))

end Operator

namespace Primitive

/-- What the primitive is called when it is shown. -/
def text (p : Primitive) : String :=
  "primitive function #<" ++ p.op.text ++ ">"

/-- Apply the operator if the arity admits the number of arguments. -/
def call (p : Primitive) (values : List Value) : Except EvalError Value :=
  if p.arity.allows values.length then p.op.apply values
  else .error (.wrongCount p.op p.arity values.length)

end Primitive

namespace Symbol

/-- The primitive that a symbol stands for; a name stands for none. -/
def primitive? : Symbol → Option Primitive
  | .operator op => some op.primitive
  | .name _ => none

end Symbol
end PrefixCalc
