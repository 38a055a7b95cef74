import PrefixCalc.Sexp.Reading

/-!
# PrefixCalc.Sexp.Nesting

The parentheses among tokens, followed from left to right with the stack of those that are open.
This finds out whether tokens are those of a program without building it, what is the first thing
wrong with them, and how deep they nest.
-/

namespace PrefixCalc
namespace Nesting

/-- The first thing wrong with tokens, while lists are open that the tokens at these indices
opened, the innermost first. -/
def error? (limit : Nat) : (opened : List Nat) → List Place → Option ReadError
  | [], [] => none
  | o :: _, [] => some (.unclosedExpression o)
  | opened, (token, index) :: rest =>
    if token = Token.opening then
      if limit ≤ opened.length then some (.nestingTooDeep limit)
      else error? limit (index :: opened) rest
    else if token = Token.closing then
      match opened with
      | [] => some (.unmatchedClose index)
      | _ :: outer => error? limit outer rest
    else error? limit opened rest

/-- The most lists that are open at once, if there are `opened` of them in front. A parenthesis that
closes no list leaves it at that. -/
def deepest : (opened : Nat) → List Token → Nat
  | opened, [] => opened
  | opened, token :: rest =>
    if token = Token.opening then deepest (opened + 1) rest
    else if token = Token.closing then max opened (deepest (opened - 1) rest)
    else deepest opened rest

/-- How deep the parentheses of a text nest. Those between quotes do not count, and a text without
tokens has none. -/
def ofText (text : String) : Nat :=
  match Token.ofText text with
  | .error _ => 0
  | .ok tokens => deepest 0 tokens

end Nesting
end PrefixCalc
