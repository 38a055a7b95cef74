/-!
# PrefixCalc.Text.Decimal

Decimal numerals: how an integer is written, and what a numeral denotes. A numeral has ASCII
digits only. Leading zeros denote nothing, so `canonical?` asks that a numeral is also the way
its value is written.
-/

namespace PrefixCalc
namespace Decimal

def ofNat (n : Nat) : String :=
  String.ofList (Nat.toDigits 10 n)

/-- The numeral of an integer: its digits, behind a `-` if it is negative. -/
def ofInt (z : Int) : String :=
  if z < 0 then "-" ++ ofNat z.natAbs else ofNat z.natAbs

/-- The value of a non-empty run of ASCII digits; leading zeros are allowed. -/
def natural? (digits : List Char) : Option Nat :=
  if digits ≠ [] ∧ digits.all Char.isDigit then some (Nat.ofDigitChars 10 digits 0) else none

/-- The value of a run of digits, behind a `-` or not. -/
def integer? : List Char → Option Int
  | '-' :: digits => (natural? digits).map fun n : Nat => -(n : Int)
  | digits => (natural? digits).map Int.ofNat

/-- The value of a text that is the numeral of its value: `7` and `-12` are, `007`, `+5` and
`-0` are not. -/
def canonical? (text : String) : Option Int :=
  match integer? text.toList with
  | none => none
  | some z => if ofInt z = text then some z else none

/-- The value of a run of digits below `bound`, behind a `+` or not. -/
def bounded? (bound : Nat) (text : String) : Option Nat :=
  let digits := match text.toList with
    | '+' :: rest => rest
    | all => all
  (natural? digits).filter (· < bound)

/-! ## Writing and reading -/

theorem toList_ofNat (n : Nat) : (ofNat n).toList = Nat.toDigits 10 n := by
  simp only [ofNat, String.toList_ofList]

theorem natural?_toDigits (n : Nat) : natural? (Nat.toDigits 10 n) = some n := by
  have hd : (Nat.toDigits 10 n).all Char.isDigit = true := by
    rw [List.all_eq_true]
    intro c hc
    exact Nat.isDigit_of_mem_toDigits (by decide) (by decide) hc
  simp only [natural?, hd, and_true, ne_eq, Nat.toDigits_ne_nil, not_false_eq_true, if_true,
    Nat.ofDigitChars_ten_toDigits]

theorem natural?_eq_some_iff {digits : List Char} {n : Nat} :
    natural? digits = some n ↔
      digits ≠ [] ∧ (∀ c ∈ digits, c.isDigit = true) ∧ n = Nat.ofDigitChars 10 digits 0 := by
  unfold natural?
  split
  · rename_i h
    rw [List.all_eq_true] at h
    rw [Option.some.injEq]
    exact ⟨fun e => ⟨h.1, h.2, e.symm⟩, fun e => e.2.2.symm⟩
  · rename_i h
    rw [List.all_eq_true] at h
    exact ⟨fun e => (Option.some_ne_none _ e.symm).elim, fun e => absurd ⟨e.1, e.2.1⟩ h⟩

theorem integer?_of_natural? {digits : List Char} {n : Nat} (h : natural? digits = some n) :
    integer? digits = some (n : Int) := by
  cases digits with
  | nil => cases h
  | cons c rest =>
    by_cases hc : c = '-'
    · subst hc
      have hd := (natural?_eq_some_iff.mp h).2.1 '-' (List.mem_cons_self ..)
      exact absurd hd (by decide)
    · unfold integer?
      split
      · rename_i heq
        cases heq
        exact absurd rfl hc
      · rw [h]
        rfl

/-- An integer is read back from its numeral. -/
theorem integer?_ofInt (z : Int) : integer? (ofInt z).toList = some z := by
  unfold ofInt
  split
  · rename_i h
    rw [String.toList_append, toList_ofNat, show "-".toList = ['-'] from rfl]
    rw [List.singleton_append, integer?, natural?_toDigits, Option.map_some, Option.some.injEq]
    omega
  · rename_i h
    rw [toList_ofNat, integer?_of_natural? (natural?_toDigits _), Option.some.injEq]
    omega

/-- Exactly the numerals that integers are written as are canonical. -/
theorem canonical?_eq_some_iff {text : String} {z : Int} :
    canonical? text = some z ↔ text = ofInt z := by
  constructor
  · intro h
    unfold canonical? at h
    split at h
    · cases h
    · rename_i z' hz
      split at h
      · rename_i he
        cases h
        exact he.symm
      · cases h
  · rintro rfl
    simp only [canonical?, integer?_ofInt, if_true]

end Decimal
end PrefixCalc
