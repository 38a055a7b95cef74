import Mathlib.Data.Nat.Find

/-!
# PrefixCalc.Proofs.Limit

Results that depend on a limit. `Persists` says that there is one way only in which the limit
matters: it can be too low, and then the error says so. What is worked out in two steps persists
if both of them do (`Persists.andThen`), and such a result has a threshold
(`Persists.exists_threshold`, `Persists.hasThreshold`).
-/

namespace PrefixCalc

/-- A higher limit changes the result only where the lower one is too low. -/
def Persists {ε α : Type} (tooLow : Nat → ε) (f : Nat → Except ε α) : Prop :=
  ∀ m n, m ≤ n → f m = .error (tooLow m) ∨ f n = f m

/-- Limits are too low up to a threshold, which is at most `bound`. From there on the result is always
the same, and it is never that the limit is too low. -/
def HasThreshold {ε α : Type} (tooLow : Nat → ε) (f : Nat → Except ε α) (bound : Nat) : Prop :=
  ∃ t ≤ bound, ∃ result : Except ε α, (∀ m < t, f m = .error (tooLow m)) ∧
    (∀ m, t ≤ m → f m = result) ∧ ∀ n, result ≠ .error (tooLow n)

namespace Persists

variable {ε α β : Type} {tooLow : Nat → ε} {f : Nat → Except ε α}

theorem const (r : Except ε α) : Persists tooLow fun _ => r :=
  fun _ _ _ => .inr rfl

theorem eq_of_le (h : Persists tooLow f) {m n : Nat} (hmn : m ≤ n)
    (hm : f m ≠ .error (tooLow m)) : f n = f m :=
  (h m n hmn).resolve_left hm

/-- A result whose first step is `f`: an error there is one of the whole, and behind it the rest has
to persist. -/
theorem andThen (hf : Persists tooLow f) {r : Nat → Except ε β}
    (herror : ∀ m e, f m = .error e → r m = .error e)
    (hok : ∀ m n a, m ≤ n → f m = .ok a → f n = .ok a →
      r m = .error (tooLow m) ∨ r n = r m) :
    Persists tooLow r := by
  intro m n hmn
  rcases hf m n hmn with h | h
  · exact .inl (herror m _ h)
  · cases hm : f m with
    | error e => exact .inr (by rw [herror m e hm, herror n e (h.trans hm)])
    | ok a => exact hok m n a hmn hm (h.trans hm)

/-- Where the limit `n` is high enough, limits are too low up to some point and never again. -/
theorem exists_threshold (h : Persists tooLow f) {n : Nat} (hn : f n ≠ .error (tooLow n)) :
    ∃ t ≤ n, (∀ m < t, f m = .error (tooLow m)) ∧ ∀ m, t ≤ m → f m = f n := by
  classical
  have hex : ∃ t, f t ≠ .error (tooLow t) := ⟨n, hn⟩
  have hle : Nat.find hex ≤ n := Nat.find_min' hex hn
  refine ⟨Nat.find hex, hle, ?_, ?_⟩
  · intro m hm
    exact Decidable.of_not_not (Nat.find_min hex hm)
  · intro m hm
    rw [h.eq_of_le hm (Nat.find_spec hex), h.eq_of_le hle (Nat.find_spec hex)]

theorem hasThreshold (h : Persists tooLow f) {bound : Nat}
    (hbound : ∀ n, f bound ≠ .error (tooLow n)) : HasThreshold tooLow f bound := by
  obtain ⟨t, hle, hbelow, habove⟩ := h.exists_threshold (hbound bound)
  exact ⟨t, hle, f bound, hbelow, habove, hbound⟩

end Persists
end PrefixCalc
