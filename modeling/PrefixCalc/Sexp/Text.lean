import PrefixCalc.Sexp.Basic
import PrefixCalc.Token.Basic

/-!
# PrefixCalc.Sexp.Text

How S-expressions are written: as text, with one space between neighbours, and as the tokens that
this text consists of.
-/

namespace PrefixCalc
namespace Sexp

mutual

def text : Sexp → String
  | .atom leaf => leaf.text
  | .list items => "(" ++ " ".intercalate (texts items) ++ ")"

def texts : List Sexp → List String
  | [] => []
  | x :: rest => text x :: texts rest

end

mutual

/-- The tokens of an S-expression: the text of each atom, and a pair of parentheses around the
tokens of each list. -/
def tokens : Sexp → List Token
  | .atom leaf => [leaf.text]
  | .list items => Token.opening :: (tokensAll items ++ [Token.closing])

def tokensAll : List Sexp → List Token
  | [] => []
  | x :: rest => tokens x ++ tokensAll rest

end

theorem texts_eq_map (items : List Sexp) : texts items = items.map text := by
  induction items with
  | nil => rfl
  | cons x rest ih => simp only [texts, ih, List.map_cons]

theorem tokensAll_eq_flatMap (items : List Sexp) : tokensAll items = items.flatMap tokens := by
  induction items with
  | nil => rfl
  | cons x rest ih => simp only [tokensAll, ih, List.flatMap_cons]

theorem tokensAll_append (front back : List Sexp) :
    tokensAll (front ++ back) = tokensAll front ++ tokensAll back := by
  simp only [tokensAll_eq_flatMap, List.flatMap_append]

end Sexp

namespace Program

def text (program : Program) : String :=
  " ".intercalate (program.map Sexp.text)

def tokens (program : Program) : List Token :=
  Sexp.tokensAll program

end Program
end PrefixCalc
