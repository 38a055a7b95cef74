import PrefixCalc.Eval
import PrefixCalc.Sexp.Reading

/-!
# PrefixCalc.Source

From source text to its tokens, its program and its value. What goes wrong on the way is a failure
to read or a failure to evaluate. One nesting limit holds for both.
-/

namespace PrefixCalc

inductive Failure where
  | read (error : ReadError)
  | eval (error : EvalError)
  deriving DecidableEq, Repr

/-- What sort of thing went wrong, for callers that need no details. -/
inductive FailureKind where
  | unclosedString
  | malformedExpression
  | nestingTooDeep
  | wrongCount
  | unknownOperator
  | divisionByZero
  | notInteger
  /-- A token was taken for a literal that it is not. -/
  | misreadLiteral
  deriving DecidableEq, Repr

namespace EvalError

def message : EvalError → String
  | .unknownOperator head => "'" ++ head ++ "' is not a known operator"
  | .missingOperator => "cannot apply an empty expression"
  | .wrongCount op expected got =>
    "When evaluating " ++ op.text ++ " expected " ++ expected.text ++ " arguments, but received "
      ++ toString got ++ " arguments"
  | .divisionByZero => "cannot divide by zero!"
  | .notInteger value => "type mismatch: expected an integer, got " ++ value.readable
  | .nestingTooDeep limit => nestingMessage limit

def kind : EvalError → FailureKind
  | .unknownOperator _ => .unknownOperator
  | .missingOperator => .unknownOperator
  | .wrongCount _ _ _ => .wrongCount
  | .divisionByZero => .divisionByZero
  | .notInteger _ => .notInteger
  | .nestingTooDeep _ => .nestingTooDeep

end EvalError

namespace ReadError

def kind : ReadError → FailureKind
  | .scan (.unclosedString _) => .unclosedString
  | .literal (.notBoolean _) => .misreadLiteral
  | .unclosedExpression _ => .malformedExpression
  | .unmatchedClose _ => .malformedExpression
  | .nestingTooDeep _ => .nestingTooDeep

end ReadError

namespace Failure

def message : Failure → String
  | .read error => "read error: " ++ error.message
  | .eval error => "eval error: " ++ error.message

def kind : Failure → FailureKind
  | .read error => error.kind
  | .eval error => error.kind

end Failure

namespace Source

/-- The nesting limit where none is given. -/
def defaultLimit : Nat := 256

def tokens (source : String) : Except Failure (List Token) :=
  match Token.ofText source with
  | .error e => .error (.read (.scan e))
  | .ok tokens => .ok tokens

def program (limit : Nat) (source : String) : Except Failure Program :=
  match Program.ofText limit source with
  | .error e => .error (.read e)
  | .ok program => .ok program

def value (limit : Nat) (source : String) : Except Failure Value :=
  match Source.program limit source with
  | .error e => .error e
  | .ok program =>
    match program.eval limit with
    | .error e => .error (.eval e)
    | .ok value => .ok value

end Source
end PrefixCalc
