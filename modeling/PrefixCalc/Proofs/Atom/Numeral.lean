import PrefixCalc.Atom.Literal

/-!
# PrefixCalc.Proofs.Atom.Numeral

Integer literals are the numerals of the integers that fit into 64 bits.

* `toDigits_ofDigitChars`: digits are those of the number that they denote, if the first is no zero.
* `numeral_iff`: the numerals are what integers are written as.
* `Token.isInteger_iff_numeral`: both for tokens, and the atoms that these stand for.
-/

namespace PrefixCalc
namespace Decimal

theorem digitChar_of_isDigit {c : Char} (h : c.isDigit = true) :
    c.toNat - '0'.toNat < 10 ∧ Nat.digitChar (c.toNat - '0'.toNat) = c := by
  have hr : 48 ≤ c.toNat ∧ c.toNat ≤ 57 := Char.isDigit_iff_toNat.mp h
  have hz : '0'.toNat = 48 := rfl
  rw [hz]
  have hlt : c.toNat - 48 < 10 := by omega
  refine ⟨hlt, Char.toNat_inj.mp ?_⟩
  rw [Nat.toNat_digitChar_of_lt_ten hlt]
  omega

/-- Digits that follow on those of a number other than zero. -/
theorem toDigits_append {n : Nat} {digits : List Char} (hn : 0 < n)
    (h : ∀ c ∈ digits, c.isDigit = true) :
    Nat.toDigits 10 (Nat.ofDigitChars 10 digits n) = Nat.toDigits 10 n ++ digits := by
  induction digits generalizing n with
  | nil => simp [Nat.ofDigitChars_nil]
  | cons c digits ih =>
    obtain ⟨hc, hdigits⟩ := List.forall_mem_cons.mp h
    obtain ⟨hlt, hchar⟩ := digitChar_of_isDigit hc
    have hstep := Nat.toDigits_append_toDigits (by decide : 1 < 10) hn hlt
    rw [Nat.toDigits_of_lt_base hlt, hchar] at hstep
    rw [Nat.ofDigitChars_cons, ih (by omega) hdigits, ← hstep]
    simp

theorem toDigits_ofDigitChars {d : Char} {digits : List Char} (hd : d ≠ '0')
    (h : ∀ c ∈ d :: digits, c.isDigit = true) :
    0 < Nat.ofDigitChars 10 (d :: digits) 0 ∧
      Nat.toDigits 10 (Nat.ofDigitChars 10 (d :: digits) 0) = d :: digits := by
  obtain ⟨hdigit, hdigits⟩ := List.forall_mem_cons.mp h
  obtain ⟨hlt, hchar⟩ := digitChar_of_isDigit hdigit
  have hpos : 0 < d.toNat - '0'.toNat := by
    apply Nat.pos_of_ne_zero
    intro h0
    rw [h0] at hchar
    exact hd hchar.symm
  have hwritten := toDigits_append hpos hdigits
  rw [Nat.toDigits_of_lt_base hlt, hchar] at hwritten
  have heq : Nat.ofDigitChars 10 (d :: digits) 0 = Nat.ofDigitChars 10 digits (d.toNat - '0'.toNat) := by
    rw [Nat.ofDigitChars_cons, Nat.mul_zero, Nat.zero_add]
  rw [heq]
  refine ⟨?_, hwritten⟩
  apply Nat.pos_of_ne_zero
  intro h0
  rw [h0, Nat.toDigits_zero] at hwritten
  cases hwritten
  exact hd rfl

theorem exists_toDigits_eq_cons {n : Nat} (hn : 0 < n) :
    ∃ d digits, Nat.toDigits 10 n = d :: digits ∧ d ≠ '0' := by
  induction n using Nat.strongRecOn with
  | ind n ih =>
    by_cases hlt : n < 10
    · refine ⟨n.digitChar, [], Nat.toDigits_of_lt_base hlt, ?_⟩
      intro h0
      have hz := Nat.digitChar_eq_zero.mp h0
      omega
    · obtain ⟨d, digits, hdigits, hd⟩ := ih (n / 10) (by omega) (by omega)
      refine ⟨d, digits ++ [(n % 10).digitChar], ?_, hd⟩
      rw [Nat.toDigits_of_base_le (by decide) (by omega), hdigits, List.cons_append]

theorem numeral_toDigits {n : Nat} (hn : 0 < n) :
    Numeral (Nat.toDigits 10 n) n ∧ Numeral ('-' :: Nat.toDigits 10 n) (-n) := by
  obtain ⟨d, digits, hdigits, hd⟩ := exists_toDigits_eq_cons hn
  obtain ⟨-, hall, hvalue⟩ := natural?_eq_some_iff.mp (natural?_toDigits n)
  rw [hdigits] at hall hvalue ⊢
  rw [hvalue]
  exact ⟨.positive hd hall, .negative hd hall⟩

theorem toList_ofInt_natCast (n : Nat) : (ofInt n).toList = Nat.toDigits 10 n := by
  have hn : ¬ (n : Int) < 0 := by omega
  simp [ofInt, hn, toList_ofNat]

theorem toList_ofInt_neg {n : Nat} (hn : 0 < n) :
    (ofInt (-n)).toList = '-' :: Nat.toDigits 10 n := by
  simp [ofInt, hn, toList_ofNat, String.toList_append]

/-- Exactly what integers are written as are numerals, and they denote these integers. -/
theorem numeral_iff {cs : List Char} {z : Int} : Numeral cs z ↔ cs = (ofInt z).toList := by
  constructor
  · intro h
    cases h with
    | zero => rfl
    | positive hd hdigits =>
      rw [toList_ofInt_natCast, (toDigits_ofDigitChars hd hdigits).2]
    | negative hd hdigits =>
      obtain ⟨hpos, hwritten⟩ := toDigits_ofDigitChars hd hdigits
      rw [toList_ofInt_neg hpos, hwritten]
  · rintro rfl
    rcases Int.lt_trichotomy z 0 with hz | rfl | hz
    · obtain ⟨n, rfl⟩ : ∃ n : Nat, z = -n := ⟨z.natAbs, by omega⟩
      have hn : 0 < n := by omega
      rw [toList_ofInt_neg hn]
      exact (numeral_toDigits hn).2
    · exact .zero
    · obtain ⟨n, rfl⟩ : ∃ n : Nat, z = n := ⟨z.natAbs, by omega⟩
      rw [toList_ofInt_natCast]
      exact (numeral_toDigits (by omega)).1

end Decimal

/-! ## Tokens -/

theorem fitsInt64_iff {z : Int} : FitsInt64 z ↔ ∃ n : Int64, n.toInt = z := by
  have hmin : Int64.minValue.toInt = -9223372036854775808 := by decide
  have hmax : Int64.maxValue.toInt = 9223372036854775807 := by decide
  constructor
  · rintro ⟨hl, hu⟩
    exact ⟨Int64.ofInt z, Int64.toInt_ofInt_of_le hl (Int.lt_add_one_of_le hu)⟩
  · rintro ⟨n, rfl⟩
    rw [FitsInt64, ← hmin, ← hmax]
    exact ⟨n.minValue_le_toInt, n.toInt_le⟩

namespace Token

theorem integer?_iff_numeral {token : Token} {z : Int} :
    (∃ n : Int64, token.integer? = some n ∧ n.toInt = z) ↔
      Numeral token.toList z ∧ FitsInt64 z := by
  rw [Decimal.numeral_iff, String.toList_inj, fitsInt64_iff]
  constructor
  · rintro ⟨n, hn, rfl⟩
    exact ⟨integer?_eq_some_iff.mp hn, n, rfl⟩
  · rintro ⟨rfl, n, rfl⟩
    exact ⟨n, integer?_eq_some_iff.mpr rfl, rfl⟩

theorem isInteger_iff {token : Token} :
    token.isInteger = true ↔ ∃ z, Numeral token.toList z ∧ FitsInt64 z := by
  simp only [← integer?_iff_numeral, isInteger, Option.isSome_iff_exists]
  constructor
  · rintro ⟨n, hn⟩
    exact ⟨n.toInt, n, hn, rfl⟩
  · rintro ⟨-, n, hn, -⟩
    exact ⟨n, hn⟩

end Token

theorem Atom.ofToken_eq_int_iff {token : Token} {n : Int64} :
    ofToken token = .ok (.int n) ↔ token.integer? = some n := by
  constructor
  · intro h
    rw [Token.integer?_eq_some_iff]
    exact (text_of_ofToken h).symm
  · intro h
    simp [ofToken, h]

namespace Token

/-- A token is an integer literal exactly if it is the numeral of an integer that fits into 64 bits.
It stands for this integer, and every such integer is read from what it is written as. -/
theorem isInteger_iff_numeral :
    (∀ token : Token, token.isInteger = true ↔ ∃ z, Numeral token.toList z ∧ FitsInt64 z) ∧
    (∀ (token : Token) (z : Int),
      (∃ n : Int64, Atom.ofToken token = .ok (.int n) ∧ n.toInt = z) ↔
        Numeral token.toList z ∧ FitsInt64 z) ∧
    ∀ n : Int64, Atom.ofToken (Decimal.ofInt n.toInt) = .ok (.int n) := by
  refine ⟨fun token => isInteger_iff, ?_, ?_⟩
  · intro token z
    simp only [Atom.ofToken_eq_int_iff]
    exact integer?_iff_numeral
  · intro n
    rw [Atom.ofToken_eq_int_iff, integer?_eq_some_iff]

end Token
end PrefixCalc
