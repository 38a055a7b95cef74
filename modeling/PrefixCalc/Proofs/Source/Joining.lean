import Mathlib.Data.List.Forall2
import PrefixCalc.CommandLine
import PrefixCalc.Proofs.Eval.Steps
import PrefixCalc.Proofs.Sexp.Joining
import PrefixCalc.Proofs.Source.Stages
import PrefixCalc.Source.Joined

/-!
# PrefixCalc.Proofs.Source.Joining

Sources that are joined by blanks.

* `Program.ofText_joined`: the programs of the texts stand one behind the other in the program of
  the whole, and an error in the last text is only moved.
* `Source.eval_flatten`: such a program comes to what the texts come to in turn.
* `Source.value_joined`: both for runs, and for the words of a command line.
-/

namespace PrefixCalc

variable {limit : Nat}

theorem Program.ofText_joined {front : List Fragment} {programs : List Program}
    (h : List.Forall₂ (fun f p => ofText limit f.text = .ok p) front programs) (back : String) :
    ofText limit (Fragment.joined front ++ back) =
      match ofText limit back with
      | .error e => .error (e.shift (Fragment.joined front).length (Fragment.tokenCount front))
      | .ok p => .ok (programs.flatten ++ p) := by
  induction h with
  | nil =>
    rw [Fragment.joined, String.empty_append]
    cases ofText limit back with
    | error e => exact congrArg _ e.shift_zero.symm
    | ok p => rfl
  | @cons f p front programs hp _ ih =>
    obtain ⟨tokens, ht, hp⟩ := ofText_eq_ok_iff.mp hp
    rw [Fragment.joined, String.append_assoc, ofText_gap ht hp f.isGap f.gap_ne, ih]
    cases ofText limit back with
    | error e => simp only [ReadError.shift_shift, Fragment.tokenCount, ht, String.length_append]
    | ok p' => simp only [List.flatten_cons, List.append_assoc]

namespace Source

/-! ## What texts come to in turn -/

section
variable {text : String} {texts : List String} {v : Value}

theorem fails_of_error {failure : Failure} (h : value limit text = .error failure) :
    fails limit text = true := by
  simp [fails, h, Except.isOk, Except.toBool]

theorem not_fails_of_ok (h : value limit text = .ok v) : ¬ fails limit text = true := by
  simp [fails, h, Except.isOk, Except.toBool]

theorem hasExpression_of_ofText {p : Program} (h : Program.ofText limit text = .ok p) :
    hasExpression limit text = true ↔ p ≠ [] := by
  cases p <;> simp [hasExpression, program, h]

theorem decisive?_cons_of_error {failure : Failure} (h : value limit text = .error failure) :
    decisive? limit (text :: texts) = some text := by
  rw [decisive?, List.find?_cons_of_pos (fails_of_error h), Option.some_or]

theorem decisive?_cons_of_ok (h : value limit text = .ok v) :
    decisive? limit (text :: texts) =
      (decisive? limit texts).or (if hasExpression limit text then some text else none) := by
  rw [decisive?, List.find?_cons_of_neg (not_fails_of_ok h), List.filter_cons, decisive?,
    Option.or_assoc]
  split
  · rw [List.getLast?_cons]
    cases (texts.filter (hasExpression limit)).getLast? with
    | none => rfl
    | some t => rfl
  · rw [Option.or_none]

theorem valueInTurn_cons_of_error {failure : Failure} (h : value limit text = .error failure) :
    valueInTurn limit (text :: texts) = .error failure := by
  rw [valueInTurn, decisive?_cons_of_error h]
  exact h

theorem valueInTurn_cons_of_ok {p : Program} (hp : Program.ofText limit text = .ok p)
    (h : value limit text = .ok v) :
    valueInTurn limit (text :: texts) =
      if decisive? limit texts = none then .ok v else valueInTurn limit texts := by
  rw [valueInTurn, decisive?_cons_of_ok h, valueInTurn]
  cases hd : decisive? limit texts with
  | some t => rfl
  | none =>
    rw [if_pos rfl, Option.none_or]
    by_cases hnil : p = []
    · subst hnil
      rw [value_of_ofText_ok hp] at h
      cases h
      rw [if_neg (by simp [hasExpression_of_ofText hp])]
      rfl
    · rw [if_pos ((hasExpression_of_ofText hp).mpr hnil)]
      exact h

end

/-- Texts without any expression have none that decides. -/
theorem decisive?_eq_none_iff {texts : List String} {programs : List Program}
    (h : List.Forall₂ (fun text p => Program.ofText limit text = .ok p) texts programs) :
    decisive? limit texts = none ↔ programs.flatten = [] := by
  induction h with
  | nil => simp [decisive?]
  | @cons text p texts programs hp _ ih =>
    cases hv : value limit text with
    | error failure =>
      have hne : p ≠ [] := by
        rintro rfl
        rw [value_of_ofText_ok hp] at hv
        cases hv
      simp [decisive?_cons_of_error hv, hne]
    | ok v =>
      rw [decisive?_cons_of_ok hv, Option.or_eq_none_iff, ih, List.flatten_cons,
        List.append_eq_nil_iff, and_comm]
      simp [hasExpression_of_ofText hp]

/-- Programs one behind the other come to what their texts come to in turn. -/
theorem eval_flatten {texts : List String} {programs : List Program}
    (h : List.Forall₂ (fun text p => Program.ofText limit text = .ok p) texts programs) :
    (Program.eval limit programs.flatten).mapError .eval = valueInTurn limit texts := by
  induction h with
  | nil => rfl
  | @cons text p texts programs hp hrest ih =>
    have hv := value_of_ofText_ok hp
    rw [List.flatten_cons, Program.eval_append]
    cases he : p.eval limit with
    | error e =>
      rw [he] at hv
      exact (valueInTurn_cons_of_error hv).symm
    | ok v =>
      rw [he] at hv
      rw [valueInTurn_cons_of_ok hp hv, ← ih]
      simp only [decisive?_eq_none_iff hrest]
      split
      · rfl
      · rfl

/-! ## The words of a command line -/

theorem intercalate_eq_joined (words : List String) (last : String) :
    " ".intercalate (words ++ [last]) = Fragment.joined (words.map Fragment.spaced) ++ last := by
  induction words with
  | nil => simp [Fragment.joined]
  | cons word words ih =>
    rw [List.cons_append, String.intercalate_cons_of_ne_nil (by simp), ih, List.map_cons,
      Fragment.joined, ← String.append_assoc]
    rfl

theorem source_eq_joined {arguments : List Argument} {r : Request}
    (h : Request.ofArguments arguments = .ok r) :
    ∃ words last, arguments.filterMap Argument.word? = words ++ [last] ∧
      r.source = Fragment.joined (words.map Fragment.spaced) ++ last := by
  unfold Request.ofArguments at h
  simp only at h
  split at h
  · cases h
  · rename_i hne
    cases h
    have hlast := List.dropLast_append_getLast hne
    refine ⟨_, _, hlast.symm, ?_⟩
    rw [← intercalate_eq_joined, hlast]

/-! ## Joined sources -/

open Fragment (joined tokenCount)

/-- Texts that are joined by blanks. If each of them is read by itself, then the whole is read as
their programs one behind the other, and comes to the first failure among them, or else to the value
of the last one that has an expression. If the last one is not read but the others are, then the
whole is not read either, and the error is that of the last one, as many characters and tokens
farther on as stand in front. The words of a command line are joined in this way. -/
theorem value_joined (limit : Nat) :
    (∀ (front : List Fragment) (last : String) (programs : List Program),
      List.Forall₂ (fun f p => program limit f.text = .ok p) front programs →
        (∀ p, program limit last = .ok p →
          program limit (joined front ++ last) = .ok (programs ++ [p]).flatten ∧
          value limit (joined front ++ last) =
            valueInTurn limit (front.map Fragment.text ++ [last])) ∧
        (∀ e, program limit last = .error (.read e) →
          program limit (joined front ++ last) =
            .error (.read (e.shift (joined front).length (tokenCount front))) ∧
          value limit (joined front ++ last) =
            .error (.read (e.shift (joined front).length (tokenCount front))))) ∧
    (∀ (arguments : List Argument) (r : Request), Request.ofArguments arguments = .ok r →
      ∃ words last, arguments.filterMap Argument.word? = words ++ [last] ∧
        r.source = joined (words.map Fragment.spaced) ++ last) := by
  refine ⟨?_, fun arguments r => source_eq_joined⟩
  intro front last programs hfront
  simp only [program_eq_ok_iff] at hfront
  have hjoined := Program.ofText_joined hfront last
  constructor
  · intro p hp
    rw [program_eq_ok_iff] at hp
    simp only [hp, ← List.flatten_concat] at hjoined
    have htexts : List.Forall₂ (fun text p => Program.ofText limit text = .ok p)
        (front.map Fragment.text ++ [last]) (programs ++ [p]) :=
      List.rel_append (List.forall₂_map_left_iff.mpr hfront) (.cons hp .nil)
    refine ⟨program_eq_ok_iff.mpr hjoined, ?_⟩
    rw [value_of_ofText_ok hjoined, eval_flatten htexts]
  · intro e he
    rw [program_eq_error_iff] at he
    rw [he] at hjoined
    exact ⟨program_eq_error_iff.mpr hjoined, value_of_ofText_error hjoined⟩

/-- An expression and a text without any, with a space behind each. A third text without any leaves
the value as it is, and the quote and the parenthesis of others are found behind the two. -/
theorem value_joined_words :
    value 1 "(+ 1 2)  " = .ok (.atom (.int 3)) ∧
      value 1 "(+ 1 2)  1 \"" = .error (.read (.scan (.unclosedString 11))) ∧
      value 1 "(+ 1 2)  1)" = .error (.read (.unmatchedClose 6)) ∧
      ∃ words last, [Argument.word "1", .word "2"].filterMap Argument.word? = words ++ [last] ∧
        "1 2" = joined (words.map Fragment.spaced) ++ last := by
  obtain ⟨htexts, hwords⟩ := value_joined 1
  let sum : Program := [.list [.atom (.sym (.operator .add)), .atom (.int 1), .atom (.int 2)]]
  have hsum : Program.ofText 1 "(+ 1 2)" = .ok sum :=
    Program.ofText_iff_fits.mpr ⟨by decide, rfl⟩
  have hempty : Program.ofText 1 "" = .ok [] := Program.ofText_iff_fits.mpr ⟨by decide, rfl⟩
  have htokens : Token.ofText "1)" = .ok ["1", ")"] := rfl
  have hclosing : Program.ofText 1 "1)" = .error (.unmatchedClose 1) :=
    Program.ofText_of_error? htokens (by decide)
  have hfront : List.Forall₂ (fun f p => program 1 f.text = .ok p)
      [Fragment.spaced "(+ 1 2)", Fragment.spaced ""] [sum, []] :=
    .cons (program_eq_ok_iff.mpr hsum) (.cons (program_eq_ok_iff.mpr hempty) .nil)
  have hturn := eval_flatten (.cons hsum (.cons hempty (.cons hempty .nil)))
  obtain ⟨hok, -⟩ := htexts _ "" _ hfront
  obtain ⟨-, hquote⟩ := htexts _ "1 \"" _ hfront
  obtain ⟨-, hclose⟩ := htexts _ "1)" _ hfront
  refine ⟨(hok [] (program_eq_ok_iff.mpr hempty)).2.trans (hturn.symm.trans rfl),
    (hquote (.scan (.unclosedString 2)) rfl).2,
    (hclose (.unmatchedClose 1) (program_eq_error_iff.mpr hclosing)).2, ?_⟩
  exact hwords [.word "1", .word "2"] ⟨.value, Source.defaultLimit, "1 2"⟩ rfl

end Source
end PrefixCalc
