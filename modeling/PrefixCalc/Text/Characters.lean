/-!
# PrefixCalc.Text.Characters

Closed ranges of code points. A character class that a standard gives as a table is a list of
these, and a character is in the class when one of the ranges contains it. One such class is that of
the blanks, which separate tokens: the 25 characters with the Unicode property White_Space.
-/

namespace PrefixCalc

/-- The code points from `first` to `last`, both included. -/
structure CodeRange where
  first : Nat
  last : Nat
  deriving DecidableEq, Repr

namespace CodeRange

def holds (r : CodeRange) (code : Nat) : Bool :=
  r.first ≤ code && code ≤ r.last

def covers (table : List CodeRange) (c : Char) : Bool :=
  table.any (·.holds c.toNat)

/-- Every range is proper, and each starts behind the end of the one before. -/
def ordered : List CodeRange → Bool
  | [] => true
  | [r] => r.first ≤ r.last
  | r :: s :: rest => r.first ≤ r.last && r.last < s.first && ordered (s :: rest)

theorem covers_iff {table : List CodeRange} {c : Char} :
    covers table c = true ↔ ∃ r ∈ table, r.first ≤ c.toNat ∧ c.toNat ≤ r.last := by
  simp [covers, holds]

end CodeRange

/-! ## Blanks -/

/-- The ranges of the Unicode property White_Space. -/
def blankRanges : List CodeRange :=
  [⟨0x0009, 0x000D⟩, ⟨0x0020, 0x0020⟩, ⟨0x0085, 0x0085⟩, ⟨0x00A0, 0x00A0⟩, ⟨0x1680, 0x1680⟩,
   ⟨0x2000, 0x200A⟩, ⟨0x2028, 0x2029⟩, ⟨0x202F, 0x202F⟩, ⟨0x205F, 0x205F⟩, ⟨0x3000, 0x3000⟩]

/-- A character that separates tokens and belongs to none. -/
def isBlank (c : Char) : Bool :=
  CodeRange.covers blankRanges c

theorem blankRanges_ordered : CodeRange.ordered blankRanges = true := by decide

/-- The blanks of ASCII text are blanks here as well. -/
theorem isBlank_of_isWhitespace {c : Char} (h : c.isWhitespace = true) : isBlank c = true := by
  simp only [Char.isWhitespace, Bool.or_eq_true, decide_eq_true_eq] at h
  rcases h with ((rfl | rfl) | rfl) | rfl <;> decide

theorem isBlank_open : isBlank '(' = false := by decide

theorem isBlank_close : isBlank ')' = false := by decide

theorem isBlank_quote : isBlank '"' = false := by decide

end PrefixCalc
