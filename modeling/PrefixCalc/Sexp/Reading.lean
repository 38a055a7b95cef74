import PrefixCalc.Atom.Literal
import PrefixCalc.Sexp.Text
import PrefixCalc.Token.Scanner

/-!
# PrefixCalc.Sexp.Reading

Reading S-expressions from tokens by recursive descent. Each token comes with its index, for the
errors to name. Lists may stand inside each other up to a limit; the first token at which reading
cannot go on decides the error. What a step leaves over is part of what it was given, so reading
ends.

The same is said with indices at the end: where among the tokens of a text reading starts, and the
index of the last token that it used. What is left is what stands behind that token.
-/

namespace PrefixCalc

inductive ReadError where
  | scan (error : ScanError)
  | literal (error : LiteralError)
  /-- The list that this token opens is never closed. -/
  | unclosedExpression (opened : Nat)
  /-- This token closes a list, and none is open. -/
  | unmatchedClose (index : Nat)
  /-- More lists stand inside each other than the limit allows. -/
  | nestingTooDeep (limit : Nat)
  deriving DecidableEq, Repr

def nestingMessage (limit : Nat) : String :=
  "expressions nested deeper than " ++ toString limit ++ " levels"

namespace ReadError

def message : ReadError → String
  | .scan error => error.message
  | .literal error => error.message
  | .unclosedExpression opened =>
    "malformed expression: '(' at token " ++ toString opened ++ " is never closed"
  | .unmatchedClose index => "malformed expression: unmatched ')' at token " ++ toString index
  | .nestingTooDeep limit => nestingMessage limit

end ReadError

/-- A token and its index among the tokens of the text. -/
abbrev Place := Token × Nat

/-- What was read, and the places that are left of `n` places at most. -/
structure Parsed (α : Type) (n : Nat) where
  value : α
  rest : List Place
  length_rest : rest.length ≤ n

namespace Sexp

mutual

/-- Read the S-expression that starts with a token, below `depth` open lists. -/
def read (limit depth : Nat) (token : Token) (index : Nat) (rest : List Place) :
    Except ReadError (Parsed Sexp rest.length) :=
  if token = Token.opening then
    if limit ≤ depth then .error (.nestingTooDeep limit)
    else
      match readItems limit (depth + 1) index rest with
      | .error e => .error e
      | .ok ⟨items, rest', h⟩ => .ok ⟨.list items, rest', h⟩
  else if token = Token.closing then .error (.unmatchedClose index)
  else
    match Atom.ofToken token with
    | .error e => .error (.literal e)
    | .ok leaf => .ok ⟨.atom leaf, rest, Nat.le_refl _⟩
termination_by (rest.length, 1)

/-- Read the items of the list that the token `opened` opens, up to the parenthesis that closes
it. -/
def readItems (limit depth opened : Nat) :
    (places : List Place) → Except ReadError (Parsed (List Sexp) places.length)
  | [] => .error (.unclosedExpression opened)
  | (token, index) :: rest =>
    if token = Token.closing then .ok ⟨[], rest, by simp⟩
    else
      match read limit depth token index rest with
      | .error e => .error e
      | .ok ⟨item, rest', _⟩ =>
        match readItems limit depth opened rest' with
        | .error e => .error e
        | .ok ⟨items, rest'', h'⟩ => .ok ⟨item :: items, rest'', by simp; omega⟩
termination_by places => (places.length, 0)

end

/-- Read S-expressions until no token is left. -/
def readAll (limit : Nat) : List Place → Except ReadError (List Sexp)
  | [] => .ok []
  | (token, index) :: rest =>
    match read limit 0 token index rest with
    | .error e => .error e
    | .ok ⟨item, rest', _⟩ =>
      match readAll limit rest' with
      | .error e => .error e
      | .ok items => .ok (item :: items)
termination_by places => places.length
decreasing_by simp; omega

end Sexp

namespace Program

def ofTokens (limit : Nat) (tokens : List Token) : Except ReadError Program :=
  Sexp.readAll limit tokens.zipIdx

def ofText (limit : Nat) (text : String) : Except ReadError Program :=
  match Token.ofText text with
  | .error e => .error (.scan e)
  | .ok tokens => ofTokens limit tokens

theorem ofText_eq_ok_iff {limit : Nat} {text : String} {program : Program} :
    ofText limit text = .ok program ↔
      ∃ tokens, Token.ofText text = .ok tokens ∧ ofTokens limit tokens = .ok program := by
  unfold ofText
  cases Token.ofText text with
  | error e => simp
  | ok tokens => simp

end Program

/-! ## By indices -/

/-- What was read, with the index of the last token in front of what is left. -/
def Parsed.upTo {α : Type} {n : Nat} (tokens : List Token) (r : Parsed α n) : α × Nat :=
  (r.value, tokens.length - r.rest.length - 1)

namespace Sexp

/-- Read the S-expression at an index, below `depth` open lists. -/
def readAt (limit depth : Nat) (tokens : List Token) (i : Nat) : Except ReadError (Sexp × Nat) :=
  match tokens.zipIdx.drop i with
  | [] => .error (.unclosedExpression i)
  | (token, index) :: rest => (read limit depth token index rest).map (Parsed.upTo tokens)

/-- Read items from an index on, up to the parenthesis that closes the list that the token at
`opened` opens. -/
def readItemsAt (limit depth opened : Nat) (tokens : List Token) (i : Nat) :
    Except ReadError (List Sexp × Nat) :=
  (readItems limit depth opened (tokens.zipIdx.drop i)).map (Parsed.upTo tokens)

/-- Read S-expressions from an index on, up to the end. -/
def readAllAt (limit : Nat) (tokens : List Token) (i : Nat) : Except ReadError (List Sexp) :=
  readAll limit (tokens.zipIdx.drop i)

/-- Behind the S-expression at `i`, reading goes on at `j`. -/
def Resumes (limit depth : Nat) (tokens : List Token) (j i : Nat) : Prop :=
  ∃ x last, readAt limit depth tokens i = .ok (x, last) ∧ j = last + 1

end Sexp
end PrefixCalc
