import PrefixCalc.Proofs.Eval.Values
import PrefixCalc.Proofs.Sexp.RoundTrip
import PrefixCalc.Proofs.Source.Stages

/-!
# PrefixCalc.Proofs.Source.Readable

Values as sources.

* `exists_readable_of_value`: what a source is worth is a readable atom, or nothing.
* `value_text`: a readable atom is worth itself.
* `value_eq_nil_iff`: the sources that are worth nothing are those without any expression.
* `value_readable_iff`: a value comes back from its readable text exactly if it is a readable atom.
-/

namespace PrefixCalc

/-- The texts that are read as the empty program are the gaps. -/
theorem Program.ofText_eq_nil_iff {limit : Nat} {text : String} :
    ofText limit text = .ok [] ↔ IsGap text.toList := by
  rw [ofText_iff_fits, ← PrefixCalc.ofText_eq_nil_iff]
  exact and_iff_right Sexp.fits_nil

namespace Source

variable {limit : Nat} {source : String}

theorem exists_readable_of_value {v : Value} (h : value limit source = .ok v) (hne : v ≠ .nil) :
    ∃ leaf, v = .atom leaf ∧ leaf.Readable := by
  obtain ⟨p, hp, hv⟩ := value_eq_ok_iff.mp h
  rcases Program.eval_cases hv with ⟨-, rfl⟩ | ⟨leaf, rfl, hleaf⟩
  · exact absurd rfl hne
  · refine ⟨leaf, rfl, ?_⟩
    rcases hleaf with hmem | ⟨n, rfl⟩
    · exact (Program.readable_of_ofText hp).2 leaf hmem
    · trivial

theorem value_text {leaf : Atom} (h : leaf.Readable) :
    value limit leaf.text = .ok (.atom leaf) := by
  have hr : Program.Readable [.atom leaf] := by
    intro leaf' hleaf
    obtain rfl : leaf' = leaf := by simpa [Sexp.leavesAll, Sexp.leaves] using hleaf
    exact h
  have hp : Program.ofText limit (Program.text [.atom leaf]) = .ok [.atom leaf] :=
    Program.ofText_of_readable (Nat.zero_le _) hr
  have htext : Program.text [.atom leaf] = leaf.text := by simp [Program.text, Sexp.text]
  rw [htext] at hp
  exact value_eq_ok_iff.mpr ⟨_, hp, rfl⟩

theorem value_eq_nil_iff : value limit source = .ok .nil ↔ IsGap source.toList := by
  rw [value_eq_ok_iff, ← Program.ofText_eq_nil_iff]
  constructor
  · rintro ⟨p, hp, hv⟩
    rcases Program.eval_cases hv with ⟨rfl, -⟩ | ⟨leaf, hleaf, -⟩
    · exact hp
    · cases hleaf
  · intro hp
    exact ⟨[], hp, rfl⟩

/-- A value comes back from its readable text, under any limit, exactly if it is a readable atom. All
that sources are worth are such atoms, except for those made of blanks only, which are worth nothing;
so of any other source that has a value, the text of this value has the same one. -/
theorem value_readable_iff :
    (∀ (limit : Nat) (v : Value),
      value limit v.readable = .ok v ↔ ∃ leaf, v = .atom leaf ∧ leaf.Readable) ∧
    (∀ (limit : Nat) (source : String) (v : Value), value limit source = .ok v → v ≠ .nil →
      ∃ leaf, v = .atom leaf ∧ leaf.Readable) ∧
    (∀ (limit : Nat) (source : String), value limit source = .ok .nil ↔ IsGap source.toList) ∧
    (∀ (m n : Nat) (source : String) (v : Value), value m source = .ok v →
      ¬ IsGap source.toList → value n v.readable = .ok v) := by
  refine ⟨?_, fun _ _ _ => exists_readable_of_value, fun _ _ => value_eq_nil_iff, ?_⟩
  · intro limit v
    constructor
    · intro h
      refine exists_readable_of_value h ?_
      rintro rfl
      -- The text for nothing is no gap: it is read as a name.
      have hn : isBlank 'n' = true := value_eq_nil_iff.mp h 'n' (by decide)
      exact absurd hn (by decide)
    · rintro ⟨leaf, rfl, hr⟩
      exact value_text hr
  · intro m n source v h hsource
    have hne : v ≠ .nil := by
      rintro rfl
      exact hsource (value_eq_nil_iff.mp h)
    obtain ⟨leaf, rfl, hr⟩ := exists_readable_of_value h hne
    exact value_text hr

/-- The value is a name with a literal at its end. -/
theorem value_readable_iff_name :
    value 1 "(+ 1 2) b\"( \"" = .ok (.atom (.sym (.name "b\"( \""))) ∧
      ¬ IsGap "(+ 1 2) b\"( \"".toList ∧ (Atom.sym (.name "b\"( \"")).Readable ∧
      value 0 "b\"( \"" = .ok (.atom (.sym (.name "b\"( \""))) := by
  obtain ⟨-, hreadable, -, hback⟩ := value_readable_iff
  have hp : Program.ofText 1 "(+ 1 2) b\"( \"" = .ok
      [.list [.atom (.sym (.operator .add)), .atom (.int 1), .atom (.int 2)],
        .atom (.sym (.name "b\"( \""))] := Program.ofText_iff_fits.mpr ⟨by decide, rfl⟩
  have h : value 1 "(+ 1 2) b\"( \"" = .ok (.atom (.sym (.name "b\"( \""))) :=
    value_of_eval_ok hp rfl
  have hgap : ¬ IsGap "(+ 1 2) b\"( \"".toList := fun hg => absurd (hg '+' (by decide)) (by decide)
  obtain ⟨leaf, hleaf, hr⟩ := hreadable 1 _ _ h (by simp)
  cases hleaf
  exact ⟨h, hgap, hr, hback 1 0 _ _ h hgap⟩

end Source
end PrefixCalc
