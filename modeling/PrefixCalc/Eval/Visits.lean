import PrefixCalc.Eval

/-!
# PrefixCalc.Eval.Visits

The order of evaluation, as the sequence of lists that it comes to, and what is wrong with each of
them by itself. A list is come to after those among its arguments, and heads are passed over.
-/

namespace PrefixCalc

/-- A list that evaluation comes to: how many lists stand around it, and its items. -/
structure Visit where
  depth : Nat
  items : List Sexp

namespace Sexp

mutual

/-- The lists that evaluation comes to, in its order. It does not look into a list that stands too
deep. -/
def visits (limit depth : Nat) : Sexp → List Visit
  | .atom _ => []
  | .list [] => [⟨depth, []⟩]
  | .list (head :: args) =>
    (if limit ≤ depth then [] else visitsAll limit (depth + 1) args) ++ [⟨depth, head :: args⟩]

def visitsAll (limit depth : Nat) : List Sexp → List Visit
  | [] => []
  | x :: rest => visits limit depth x ++ visitsAll limit depth rest

end

mutual

/-- What an S-expression is worth if nothing in it is wrong, without a look at the nesting. -/
def worth : Sexp → Value
  | .atom leaf => .atom leaf
  | .list [] => .nil
  | .list (head :: args) =>
    match head with
    | .atom (.sym (.operator op)) =>
      match op.apply (worths args) with
      | .ok value => value
      | .error _ => .nil
    | _ => .nil

def worths : List Sexp → List Value
  | [] => []
  | x :: rest => worth x :: worths rest

end

end Sexp

namespace Operator

/-- What is wrong with a call on these values: their number, then the first that is no integer,
then a divisor zero. -/
def failure? (op : Operator) (values : List Value) : Option EvalError :=
  if op.arity.allows values.length = false then some (.wrongCount op op.arity values.length)
  else
    match values.find? fun value => value.int? = none with
    | some value => some (.notInteger value)
    | none =>
      if op = .div ∧ values.getLast? = some (.atom (.int 0)) then some .divisionByZero else none

end Operator

namespace Visit

/-- What is wrong with a list by itself, if its arguments are in order: it stands too deep, it is
empty, its head is no operator, or the call fails. -/
def failure? (limit : Nat) (v : Visit) : Option EvalError :=
  if limit ≤ v.depth then some (.nestingTooDeep limit)
  else
    match v.items with
    | [] => some .missingOperator
    | .atom (.sym (.operator op)) :: args => op.failure? (Sexp.worths args)
    | head :: _ => some (.unknownOperator head.text)

end Visit

namespace Program

/-- The first thing wrong with a program, in the order of evaluation. -/
def failure? (limit : Nat) (program : Program) : Option EvalError :=
  (Sexp.visitsAll limit 0 program).findSome? (Visit.failure? limit)

/-- Something is wrong with this list, and with none of those that evaluation comes to before. -/
def StopsAt (limit : Nat) (program : Program) (v : Visit) : Prop :=
  ∃ front back, Sexp.visitsAll limit 0 program = front ++ v :: back ∧
    (∀ u ∈ front, u.failure? limit = none) ∧ v.failure? limit ≠ none

end Program
end PrefixCalc
