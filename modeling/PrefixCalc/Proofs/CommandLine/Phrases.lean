import PrefixCalc.CommandLine.Grammar

/-!
# PrefixCalc.Proofs.CommandLine.Phrases

Command lines by their grammar.

* `Argument.ofStrings_phrases`: what stands behind phrases is read as by itself.
* `exists_phrasing_or_offence`: a line follows the grammar, or some argument is the first one out of
  place.
* `FirstOffence.error`: a line with an argument out of place is refused.
* `Phrasing.ofStrings_strings`: what a line asks for that follows the grammar.
* `Request.ofCommandLine_phrasing`: the lines that ask for something, and their options in front of
  their words.
-/

namespace PrefixCalc

/-! ## What phrases say -/

namespace Phrase

/-- The phrase as the reader of the command line takes it. -/
def argument : Phrase → Argument
  | .tokens => .view .tokens
  | .tree => .view .tree
  | .limit _ n _ => .limit n
  | .word text _ => .word text

theorem view?_argument (phrase : Phrase) : phrase.argument.view? = phrase.view? := by
  cases phrase <;> rfl

theorem nesting?_argument (phrase : Phrase) : phrase.argument.nesting? = phrase.limit? := by
  cases phrase <;> rfl

theorem word?_argument (phrase : Phrase) : phrase.argument.word? = phrase.word? := by
  cases phrase <;> rfl

end Phrase

namespace Argument

theorem ofStrings_phrase (p : Phrase) (rest : List String) :
    ofStrings (p.strings ++ rest) = (ofStrings rest).map (p.argument :: ·) := by
  cases p with
  | tokens =>
    rw [Phrase.strings, List.singleton_append, ofStrings.eq_def]
    rfl
  | tree =>
    rw [Phrase.strings, List.singleton_append, ofStrings.eq_def]
    rfl
  | limit value n isLimit =>
    rw [Phrase.strings, List.cons_append, List.singleton_append, ofStrings.eq_def]
    simp [limit?_eq_some_iff.mpr isLimit, Phrase.argument]
  | word text noOption =>
    have hoption : isOption text = false := by
      rw [← Bool.not_eq_true, isOption_eq_true_iff]
      rintro ⟨rest, h⟩
      exact noOption rest h
    have htokens : text ≠ "--tokens" := noOption "tokens"
    have htree : text ≠ "--ast" := noOption "ast"
    have hlimit : text ≠ "--max-depth" := noOption "max-depth"
    have hend : text ≠ "--" := noOption ""
    rw [Phrase.strings, List.singleton_append, ofStrings.eq_def]
    simp [hoption, htokens, htree, hlimit, hend, Phrase.argument]

theorem ofStrings_phrases (phrases : List Phrase) (rest : List String) :
    ofStrings (phrases.flatMap Phrase.strings ++ rest) =
      (ofStrings rest).map (phrases.map Phrase.argument ++ ·) := by
  induction phrases with
  | nil =>
    cases h : ofStrings rest with
    | error e => simp [h, Except.map]
    | ok said => simp [h, Except.map]
  | cons p phrases ih =>
    rw [List.flatMap_cons, List.append_assoc, ofStrings_phrase, ih]
    cases ofStrings rest with
    | error e => rfl
    | ok said => rfl

theorem ofStrings_end (texts : List String) :
    ofStrings ("--" :: texts) = .ok (texts.map .word) := by
  rw [ofStrings.eq_def]
  simp

end Argument

/-! ## Every line follows the grammar or offends -/

namespace Phrasing

def cons (phrase : Phrase) (p : Phrasing) : Phrasing :=
  { p with phrases := phrase :: p.phrases }

theorem strings_cons (phrase : Phrase) (p : Phrasing) :
    (p.cons phrase).strings = phrase.strings ++ p.strings := by
  simp [cons, strings, List.append_assoc]

end Phrasing

theorem FirstOffence.cons {args : List String} {reason : String} (phrase : Phrase)
    (h : FirstOffence args reason) : FirstOffence (phrase.strings ++ args) reason := by
  obtain ⟨phrases, rest, rfl, hrest⟩ := h
  exact ⟨phrase :: phrases, rest, by simp [List.append_assoc], hrest⟩

theorem exists_phrasing_or_offence_cons (phrase : Phrase) {args : List String}
    (h : (∃ p : Phrasing, args = p.strings) ∨ ∃ reason, FirstOffence args reason) :
    (∃ p : Phrasing, phrase.strings ++ args = p.strings) ∨
      ∃ reason, FirstOffence (phrase.strings ++ args) reason := by
  rcases h with ⟨p, rfl⟩ | ⟨reason, h⟩
  · exact .inl ⟨p.cons phrase, (p.strings_cons phrase).symm⟩
  · exact .inr ⟨reason, h.cons phrase⟩

theorem Offence.first {args : List String} {reason : String} (h : Offence args reason) :
    FirstOffence args reason :=
  ⟨[], args, rfl, h⟩

/-- A line follows the grammar, or there is a first argument out of place. -/
theorem exists_phrasing_or_offence (args : List String) :
    (∃ p : Phrasing, args = p.strings) ∨ ∃ reason, FirstOffence args reason := by
  -- the reader has one case for each sort of phrase and one for each way to offend
  induction args using Argument.ofStrings.induct with
  | case1 => exact .inl ⟨⟨[], none⟩, rfl⟩
  | case2 rest ih => exact exists_phrasing_or_offence_cons .tokens ih
  | case3 rest _ ih => exact exists_phrasing_or_offence_cons .tree ih
  | case4 => exact .inr ⟨_, Offence.missingLimit.first⟩
  | case5 value rest hvalue =>
    exact .inr ⟨_, (Offence.badLimit (Argument.limit?_eq_none_iff.mp hvalue)).first⟩
  | case6 value rest n hvalue _ _ ih =>
    exact exists_phrasing_or_offence_cons
      (.limit value n (Argument.limit?_eq_some_iff.mp hvalue)) ih
  | case7 rest => exact .inl ⟨⟨[], some rest⟩, rfl⟩
  | case8 arg rest htokens htree hlimit hend hoption =>
    have hname := Argument.isOption_eq_true_iff.mp hoption
    exact .inr ⟨_, (Offence.unknownOption hname (by simp [htokens, htree, hlimit, hend])).first⟩
  | case9 arg rest _ _ _ _ hoption ih =>
    rw [Argument.isOption_eq_true_iff] at hoption
    exact exists_phrasing_or_offence_cons (.word arg (not_exists.mp hoption)) ih

/-! ## Lines that offend -/

theorem Offence.error {args : List String} {reason : String} (h : Offence args reason) :
    ∃ e, Argument.ofStrings args = .error e ∧ e.reason = reason := by
  rw [Argument.ofStrings.eq_def]
  cases h with
  | missingLimit => exact ⟨.missingLimit, rfl, rfl⟩
  | @badLimit value rest hvalue =>
    have hnone := Argument.limit?_eq_none_iff.mpr hvalue
    exact ⟨.badLimit value, by simp [hnone], rfl⟩
  | @unknownOption option rest hname hknown =>
    have hoption := Argument.isOption_eq_true_iff.mpr hname
    simp only [List.mem_cons, List.not_mem_nil, or_false, not_or] at hknown
    exact ⟨.unknownOption option, by simp [hoption, hknown], rfl⟩

theorem FirstOffence.error {args : List String} {reason : String} (h : FirstOffence args reason) :
    ∃ e, Argument.ofStrings args = .error e ∧ e.reason = reason := by
  obtain ⟨phrases, rest, rfl, hrest⟩ := h
  obtain ⟨e, he, hreason⟩ := hrest.error
  exact ⟨e, by rw [Argument.ofStrings_phrases, he]; rfl, hreason⟩

theorem FirstOffence.request_error {args : List String} {reason : String}
    (h : FirstOffence args reason) :
    ∃ e, Request.ofStrings args = .error e ∧ e.reason = reason := by
  obtain ⟨e, he, hreason⟩ := h.error
  exact ⟨e, by rw [Request.ofStrings, he], hreason⟩

/-! ## Lines that follow the grammar -/

namespace Phrasing

/-- What the arguments of a line say, one by one. -/
def arguments (p : Phrasing) : List Argument :=
  p.phrases.map Phrase.argument ++ (p.behind.getD []).map .word

theorem argument_ofStrings_strings (p : Phrasing) :
    Argument.ofStrings p.strings = .ok p.arguments := by
  rw [strings, Argument.ofStrings_phrases, arguments]
  cases p.behind with
  | none => rfl
  | some texts =>
    rw [Argument.ofStrings_end]
    rfl

/-- Behind `--` there are only words, so options are among the phrases. -/
theorem filterMap_arguments {α : Type} {f : Argument → Option α} {g : Phrase → Option α}
    (hword : ∀ text, f (.word text) = none) (h : ∀ phrase, f phrase.argument = g phrase)
    (p : Phrasing) : p.arguments.filterMap f = p.phrases.filterMap g := by
  have hbehind : ((p.behind.getD []).map Argument.word).filterMap f = [] := by
    simp [hword]
  rw [arguments, List.filterMap_append, hbehind, List.append_nil, List.filterMap_map, ← funext h]
  rfl

theorem filterMap_word?_arguments (p : Phrasing) :
    p.arguments.filterMap Argument.word? = p.words := by
  have hbehind : ((p.behind.getD []).map Argument.word).filterMap Argument.word? =
      p.behind.getD [] := by
    rw [List.filterMap_map]
    exact List.filterMap_some
  rw [arguments, List.filterMap_append, hbehind, List.filterMap_map, words,
    ← funext Phrase.word?_argument]
  rfl

theorem ofStrings_strings (p : Phrasing) :
    Request.ofStrings p.strings =
      if p.words = [] then .error .noSource else .ok p.request := by
  simp only [Request.ofStrings, argument_ofStrings_strings, Request.ofArguments,
    filterMap_word?_arguments, request]
  rw [filterMap_arguments (fun _ => rfl) Phrase.view?_argument,
    filterMap_arguments (fun _ => rfl) Phrase.nesting?_argument]
  rfl

/-! ## Options in front of words -/

theorem word?_of_option {phrase : Phrase} (h : phrase.isWord = false) : phrase.word? = none := by
  cases phrase with
  | word text noOption => cases h
  | _ => rfl

theorem filterMap_filter {α : Type} {f : Phrase → Option α} {q : Phrase → Bool}
    (h : ∀ phrase, q phrase = false → f phrase = none) (phrases : List Phrase) :
    (phrases.filter q).filterMap f = phrases.filterMap f := by
  have hf : (fun phrase => if q phrase = true then f phrase else none) = f := by
    funext phrase
    cases hq : q phrase with
    | false => exact (h phrase hq).symm
    | true => rfl
  rw [List.filterMap_filter, hf]

theorem filterMap_filter_eq_nil {α : Type} {f : Phrase → Option α} {q : Phrase → Bool}
    (h : ∀ phrase, q phrase = true → f phrase = none) (phrases : List Phrase) :
    (phrases.filter q).filterMap f = [] := by
  rw [List.filterMap_eq_nil_iff]
  intro phrase hmem
  exact h phrase (List.mem_filter.mp hmem).2

theorem words_optionsFirst (p : Phrasing) : p.optionsFirst.words = p.words := by
  have hoptions : ∀ phrase : Phrase, (!phrase.isWord) = true → phrase.word? = none :=
    fun phrase h => word?_of_option (by simpa using h)
  rw [words, words, optionsFirst, List.filterMap_append, filterMap_filter_eq_nil hoptions,
    filterMap_filter fun phrase => word?_of_option, List.nil_append]

theorem filterMap_optionsFirst {α : Type} {f : Phrase → Option α}
    (hf : ∀ phrase, phrase.isWord = true → f phrase = none) (p : Phrasing) :
    p.optionsFirst.phrases.filterMap f = p.phrases.filterMap f := by
  have hwords : ∀ phrase : Phrase, (!phrase.isWord) = false → f phrase = none :=
    fun phrase h => hf phrase (by simpa using h)
  rw [optionsFirst, List.filterMap_append, filterMap_filter hwords, filterMap_filter_eq_nil hf,
    List.append_nil]

theorem view?_of_word {phrase : Phrase} (h : phrase.isWord = true) : phrase.view? = none := by
  cases phrase with
  | word text noOption => rfl
  | _ => cases h

theorem limit?_of_word {phrase : Phrase} (h : phrase.isWord = true) : phrase.limit? = none := by
  cases phrase with
  | word text noOption => rfl
  | _ => cases h

theorem request_optionsFirst (p : Phrasing) : p.optionsFirst.request = p.request := by
  rw [request, request, words_optionsFirst, filterMap_optionsFirst fun _ => view?_of_word,
    filterMap_optionsFirst fun _ => limit?_of_word]

end Phrasing

namespace Request

/-- A command line asks for something exactly if it follows the grammar and has a word in it. The
last option of each sort counts, all words together are the source, and it makes no difference to
write the options in front of the words. -/
theorem ofCommandLine_phrasing :
    (∀ (line : List String) (request : Request), ofCommandLine line = .ok request ↔
      ∃ p : Phrasing, line.tail = p.strings ∧ p.words ≠ [] ∧ request = p.request) ∧
    ∀ (program : String) (p : Phrasing),
      ofCommandLine (program :: p.optionsFirst.strings) = ofCommandLine (program :: p.strings) := by
  refine ⟨fun line request => ⟨fun h => ?_, ?_⟩, fun program p => ?_⟩
  · rw [ofCommandLine] at h
    rcases exists_phrasing_or_offence line.tail with ⟨p, hp⟩ | ⟨reason, hoffence⟩
    · rw [hp, p.ofStrings_strings] at h
      split at h
      · cases h
      · rename_i hwords
        cases h
        exact ⟨p, hp, hwords, rfl⟩
    · obtain ⟨e, he, -⟩ := hoffence.request_error
      rw [he] at h
      cases h
  · rintro ⟨p, hp, hwords, rfl⟩
    rw [ofCommandLine, hp, p.ofStrings_strings, if_neg hwords]
  · rw [ofCommandLine, ofCommandLine, List.tail_cons, List.tail_cons, Phrasing.ofStrings_strings,
      Phrasing.ofStrings_strings, p.words_optionsFirst, p.request_optionsFirst]

/-- One `-` makes no option, and behind `--` there are none. -/
example : ofCommandLine ["calc", "-5", "--max-depth", "+007", "--ast", "--", "--tokens"] =
    .ok ⟨.tree, 7, "-5 --tokens"⟩ := by rfl

end Request
end PrefixCalc
