import PrefixCalc.Text.Decimal

/-!
# PrefixCalc.Atom.Basic

Atoms, the leaves of an expression: 64-bit integers, strings, booleans and symbols. A symbol is
one of the four operators or a name; a name may have any text, also that of an operator, and is
then still no operator. Values, the results of evaluation, are atoms, or nothing at all where a
program has no expression.
-/

namespace PrefixCalc

/-- The operations that an expression can ask for. -/
inductive Operator where
  | add
  | sub
  | mul
  | div
  deriving DecidableEq, Repr

namespace Operator

def text : Operator → String
  | .add => "+"
  | .sub => "-"
  | .mul => "*"
  | .div => "/"

def ofText? (text : String) : Option Operator :=
  if text = "+" then some .add
  else if text = "-" then some .sub
  else if text = "*" then some .mul
  else if text = "/" then some .div
  else none

theorem ofText?_text (op : Operator) : ofText? op.text = some op := by
  cases op <;> rfl

theorem ofText?_eq_some_iff {text : String} {op : Operator} :
    ofText? text = some op ↔ text = op.text := by
  constructor
  · intro h
    unfold ofText? at h
    repeat' split at h
    all_goals cases h
    all_goals assumption
  · rintro rfl
    exact ofText?_text op

end Operator

inductive Symbol where
  | operator (op : Operator)
  | name (text : String)
  deriving DecidableEq, Repr

namespace Symbol

def text : Symbol → String
  | .operator op => op.text
  | .name text => text

/-- The symbol that a text is read as: an operator where there is one of this text. -/
def ofText (text : String) : Symbol :=
  match Operator.ofText? text with
  | some op => .operator op
  | none => .name text

@[simp] theorem text_ofText (text : String) : (ofText text).text = text := by
  unfold ofText
  split
  · rename_i op h
    exact (Operator.ofText?_eq_some_iff.mp h).symm
  · rfl

end Symbol

inductive Atom where
  | int (value : Int64)
  | str (content : String)
  | bool (value : Bool)
  | sym (symbol : Symbol)
  deriving DecidableEq, Repr

def boolText : Bool → String
  | true => "true"
  | false => "false"

namespace Atom

/-- How the atom is written: a string between quotes, and without any escapes. -/
def text : Atom → String
  | .int value => Decimal.ofInt value.toInt
  | .str content => "\"" ++ content ++ "\""
  | .bool value => boolText value
  | .sym symbol => symbol.text

end Atom

/-! ## Values -/

inductive Value where
  /-- The value of the empty program. -/
  | nil
  | atom (leaf : Atom)
  deriving DecidableEq, Repr

namespace Value

/-- The text of a value from which it can be read back: a string stands between quotes. -/
def readable : Value → String
  | .nil => "nil"
  | .atom leaf => leaf.text

/-- The text of a value on its own: a string is its content. -/
def plain : Value → String
  | .atom (.str content) => content
  | value => value.readable

def int? : Value → Option Int64
  | .atom (.int n) => some n
  | _ => none

theorem int?_eq_some_iff {value : Value} {n : Int64} :
    value.int? = some n ↔ value = .atom (.int n) := by
  constructor
  · intro h
    unfold int? at h
    split at h
    · cases h; rfl
    · cases h
  · rintro rfl
    rfl

end Value
end PrefixCalc
