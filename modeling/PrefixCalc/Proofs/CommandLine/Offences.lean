import PrefixCalc.Proofs.CommandLine.Phrases

/-!
# PrefixCalc.Proofs.CommandLine.Offences

Command lines that are refused.

* `FirstOffence.not_phrasing`: what offends does not follow the grammar.
* `Request.ofCommandLine_offence`: the reason why a line is refused.
-/

namespace PrefixCalc

theorem Offence.reason_ne {args : List String} {reason : String} (h : Offence args reason) :
    reason ≠ "no source given" := by
  intro he
  have hlist := congrArg String.toList he
  cases h with
  | missingLimit => simp at hlist
  | badLimit hvalue => simp at hlist
  | unknownOption hname hknown => simp at hlist

theorem FirstOffence.not_phrasing {args : List String} {reason : String}
    (h : FirstOffence args reason) (p : Phrasing) : args ≠ p.strings := by
  rintro rfl
  obtain ⟨e, he, -⟩ := h.error
  rw [p.argument_ofStrings_strings] at he
  cases he

namespace Request

theorem ofCommandLine_eq_error_iff {line : List String} {reason : String} :
    (∃ e, ofCommandLine line = .error e ∧ e.reason = reason) ↔
      FirstOffence line.tail reason ∨
        reason = "no source given" ∧ ∃ p : Phrasing, line.tail = p.strings ∧ p.words = [] := by
  rw [ofCommandLine]
  constructor
  · rintro ⟨e, he, rfl⟩
    rcases exists_phrasing_or_offence line.tail with ⟨p, hp⟩ | ⟨reason, hoffence⟩
    · rw [hp, p.ofStrings_strings] at he
      split at he
      · rename_i hwords
        cases he
        exact .inr ⟨rfl, p, hp, hwords⟩
      · cases he
    · obtain ⟨e', he', hreason⟩ := hoffence.request_error
      rw [he'] at he
      cases he
      exact .inl (hreason ▸ hoffence)
  · rintro (hoffence | ⟨rfl, p, hp, hwords⟩)
    · exact hoffence.request_error
    · exact ⟨.noSource, by rw [hp, p.ofStrings_strings, if_pos hwords], rfl⟩

/-- A command line is refused because of the first argument out of place, if there is one, and else
because there is no word in it. -/
theorem ofCommandLine_offence (line : List String) :
    (∀ reason, (∃ e, ofCommandLine line = .error e ∧ e.reason = reason) ↔
      FirstOffence line.tail reason ∨
        reason = "no source given" ∧ ∃ p : Phrasing, line.tail = p.strings ∧ p.words = []) ∧
    ((∃ e, ofCommandLine line = .error e ∧ e.reason = "no source given") ↔
      (∀ reason, ¬ FirstOffence line.tail reason) ∧
        ∃ p : Phrasing, line.tail = p.strings ∧ p.words = []) := by
  refine ⟨fun reason => ofCommandLine_eq_error_iff, ?_⟩
  rw [ofCommandLine_eq_error_iff]
  constructor
  · rintro (⟨phrases, rest, -, hoffence⟩ | ⟨-, p, hp, hwords⟩)
    · exact absurd rfl hoffence.reason_ne
    · exact ⟨fun reason hoffence => hoffence.not_phrasing p hp, p, hp, hwords⟩
  · rintro ⟨-, hp⟩
    exact .inr ⟨rfl, hp⟩

/-- What stands behind `--max-depth` is its value, and options do not end there. -/
example : ofCommandLine ["calc", "--max-depth", "--", "--verbose"] = .error (.badLimit "--") := by
  rfl

end Request
end PrefixCalc
