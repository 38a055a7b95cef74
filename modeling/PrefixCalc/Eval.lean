import PrefixCalc.Operation.Basic
import PrefixCalc.Sexp.Text

/-!
# PrefixCalc.Eval

Evaluation. An atom is its own value. The arguments of a list are evaluated from left to right,
before its head is looked at, and the head itself is never evaluated: it has to be an operator.
A list that stands inside too many others has no value.
-/

namespace PrefixCalc
namespace Sexp

def primitive : Sexp → Except EvalError Primitive
  | .atom (.sym symbol) =>
    match symbol.primitive? with
    | some p => .ok p
    | none => .error (.unknownOperator symbol.text)
  | head => .error (.unknownOperator head.text)

mutual

/-- The value of an S-expression that stands inside `depth` lists. -/
def eval (limit depth : Nat) : Sexp → Except EvalError Value
  | .atom leaf => .ok (.atom leaf)
  | .list [] => if limit ≤ depth then .error (.nestingTooDeep limit) else .error .missingOperator
  | .list (head :: args) =>
    if limit ≤ depth then .error (.nestingTooDeep limit)
    else
      match evalAll limit (depth + 1) args with
      | .error e => .error e
      | .ok values =>
        match head.primitive with
        | .error e => .error e
        | .ok p => p.call values

/-- The values of several S-expressions, from left to right and up to the first error. -/
def evalAll (limit depth : Nat) : List Sexp → Except EvalError (List Value)
  | [] => .ok []
  | x :: rest =>
    match eval limit depth x with
    | .error e => .error e
    | .ok value =>
      match evalAll limit depth rest with
      | .error e => .error e
      | .ok values => .ok (value :: values)

end

end Sexp

namespace Program

/-- The value of a program: that of its last expression, provided that all of them have one. -/
def eval (limit : Nat) (program : Program) : Except EvalError Value :=
  match Sexp.evalAll limit 0 program with
  | .error e => .error e
  | .ok values => .ok (values.getLastD .nil)

end Program
end PrefixCalc
