import Mathlib.Data.Int.ModEq
import Mathlib.Data.List.Fold
import PrefixCalc.Operation.Exact
import PrefixCalc.Proofs.Operation.Calls

/-!
# PrefixCalc.Proofs.Operation.Exact

Sums, products and differences of words are those of integers, reduced modulo `2 ^ 64`.

* `toInt_modEq_iff`: each integer is congruent to one word, which is `Int64.ofInt` of it.
* `compute_ofInt`, `call_ofInt`: the result for reduced arguments is the reduced result.
-/

namespace PrefixCalc

theorem toInt_modEq_iff {n : Int64} {z : Int} : n.toInt ≡ z [ZMOD 2 ^ 64] ↔ n = Int64.ofInt z := by
  constructor
  · intro h
    rw [eq_comm, Int64.ofInt_eq_iff_bmod_eq_toInt, ← Int.emod_bmod]
    have hz : z % ((2 ^ 64 : Nat) : Int) = n.toInt % ((2 ^ 64 : Nat) : Int) := h.symm
    rw [hz, Int.emod_bmod]
    exact Int64.toInt_bmod n
  · rintro rfl
    rw [Int64.toInt_ofInt]
    exact Int.bmod_emod

/-- A fold over words is the fold over integers that they are reduced from, reduced at the end. -/
theorem foldl_ofInt {f : Int → Int → Int} {g : Int64 → Int64 → Int64} [Std.Commutative f]
    [Std.Associative f] (h : ∀ a b, g (.ofInt a) (.ofInt b) = .ofInt (f a b)) (zs : List Int)
    (a : Int) : (zs.map Int64.ofInt).foldl g (.ofInt a) = .ofInt (zs.foldr f a) := by
  rw [List.foldl_map, ← List.foldl_eq_foldr]
  exact List.foldl_hom Int64.ofInt h

namespace Operator

/-- There is an exact result exactly for arguments in a number that the operator takes. -/
theorem exists_overInt?_iff {op : Operator} {zs : List Int} (hop : op ≠ .div) :
    (∃ z, op.overInt? zs = some z) ↔ op.arity.allows zs.length = true := by
  rw [allows_arity_iff]
  cases op with
  | add => simp [overInt?]
  | mul => simp [overInt?]
  | sub =>
    constructor
    · rintro ⟨z, h⟩ -
      rcases zs with _ | ⟨a, _ | ⟨b, _ | ⟨c, zs⟩⟩⟩
      · cases h
      · cases h
      · rfl
      · cases h
    · intro h
      obtain ⟨a, b, rfl⟩ := List.length_eq_two.mp (h (.inl rfl))
      exact ⟨a - b, rfl⟩
  | div => exact absurd rfl hop

theorem compute_ofInt {op : Operator} {zs : List Int} {z : Int} (hop : op ≠ .div)
    (h : op.overInt? zs = some z) : op.compute (zs.map Int64.ofInt) = .ok (.ofInt z) := by
  unfold overInt? at h
  split at h
  · cases h
    exact congrArg _ (foldl_ofInt (fun a b => (Int64.ofInt_add a b).symm) zs 0)
  · cases h
    exact congrArg _ (foldl_ofInt (fun a b => (Int64.ofInt_mul a b).symm) zs 1)
  · rename_i a b
    cases h
    exact congrArg _ (Int64.ofInt_sub a b).symm
  · cases h
  · exact absurd rfl hop
  · exact absurd rfl hop

theorem call_ofInt {op : Operator} {zs : List Int} {z : Int} (hop : op ≠ .div)
    (h : op.overInt? zs = some z) :
    op.primitive.call (Value.ofIntegers (zs.map Int64.ofInt)) =
      .ok (.atom (.int (.ofInt z))) := by
  have hallows : op.arity.allows (zs.map Int64.ofInt).length = true := by
    rw [List.length_map]
    exact (exists_overInt?_iff hop).mp ⟨z, h⟩
  rw [call_integers hallows, compute_ofInt hop h]

end Operator
end PrefixCalc
