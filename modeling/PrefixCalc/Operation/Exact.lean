import PrefixCalc.Operation.Basic
import PrefixCalc.Sexp.Basic

/-!
# PrefixCalc.Operation.Exact

The operations on integers of any size, without a bound on the results. The operations on 64 bits
are these, reduced modulo `2 ^ 64`.
-/

namespace PrefixCalc
namespace Operator

/-- The exact result; there is none for a wrong number of arguments or for a divisor zero. -/
def overInt? : Operator → List Int → Option Int
  | .add, zs => some (zs.foldr (· + ·) 0)
  | .mul, zs => some (zs.foldr (· * ·) 1)
  | .sub, [a, b] => some (a - b)
  | .sub, _ => none
  | .div, [a, b] => if b = 0 then none else some (a.tdiv b)
  | .div, _ => none

end Operator

namespace Sexp

mutual

/-- The exact number that sums, products and differences of integers denote. -/
def overInt? : Sexp → Option Int
  | .atom (.int n) => some n.toInt
  | .atom _ => none
  | .list (.atom (.sym (.operator op)) :: args) =>
    if op = .div then none
    else
      match overIntAll? args with
      | none => none
      | some zs => op.overInt? zs
  | .list _ => none

def overIntAll? : List Sexp → Option (List Int)
  | [] => some []
  | x :: rest =>
    match overInt? x, overIntAll? rest with
    | some z, some zs => some (z :: zs)
    | _, _ => none

end

end Sexp
end PrefixCalc
