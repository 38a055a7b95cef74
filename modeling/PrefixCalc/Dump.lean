import PrefixCalc.Sexp.Basic
import PrefixCalc.Text.Quoted
import PrefixCalc.Token.Basic

/-!
# PrefixCalc.Dump

Listings for inspection: of tokens on one line, and of a program as an indented tree. In a tree
each constructor and each field has lines of its own, a field ends with a comma, and every level
is indented by four more spaces. Texts are quoted, so a line never breaks inside of one.
-/

namespace PrefixCalc
namespace Dump

def tokens (tokens : List Token) : String :=
  "[" ++ ", ".intercalate (tokens.map Quoted.ofText) ++ "]"

def line (level : Nat) (content : String) : String :=
  String.ofList (List.replicate (4 * level) ' ') ++ content

/-- A constructor around the lines of its only field. -/
def wrapped (level : Nat) (name : String) (field : List String) : List String :=
  line level (name ++ "(") :: (field ++ [line level "),"])

def operatorName : Operator → String
  | .add => "Add"
  | .sub => "Sub"
  | .mul => "Mul"
  | .div => "Div"

def symbolLines (level : Nat) : Symbol → List String
  | .operator op => wrapped level "Builtin" [line (level + 1) (operatorName op ++ ",")]
  | .name text => wrapped level "User" [line (level + 1) (Quoted.ofText text ++ ",")]

def atomLines (level : Nat) : Atom → List String
  | .int n => wrapped level "Integer" [line (level + 1) (Decimal.ofInt n.toInt ++ ",")]
  | .str content => wrapped level "String" [line (level + 1) (Quoted.ofText content ++ ",")]
  | .bool b => wrapped level "Boolean" [line (level + 1) (boolText b ++ ",")]
  | .sym symbol => wrapped level "Symbol" (symbolLines (level + 1) symbol)

/-- A list in brackets around the lines of its items, without a line of its own for the end if
there is none. -/
def bracketed (level : Nat) (items : List String) : List String :=
  match items with
  | [] => [line level "[],"]
  | _ :: _ => line level "[" :: (items ++ [line level "],"])

mutual

def sexpLines (level : Nat) : Sexp → List String
  | .atom leaf => wrapped level "Atom" (atomLines (level + 1) leaf)
  | .list items =>
    wrapped level "Expression"
      (wrapped (level + 1) "Expression" (bracketed (level + 2) (sexpLinesAll (level + 3) items)))

def sexpLinesAll (level : Nat) : List Sexp → List String
  | [] => []
  | x :: rest => sexpLines level x ++ sexpLinesAll level rest

end

def program (program : Program) : String :=
  "\n".intercalate (["Program("] ++ bracketed 1 (sexpLinesAll 2 program) ++ [")"])

end Dump
end PrefixCalc
