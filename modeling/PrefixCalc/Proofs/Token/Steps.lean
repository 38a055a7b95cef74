import PrefixCalc.Token.Grammar
import PrefixCalc.Token.Scanner

/-!
# PrefixCalc.Proofs.Token.Steps

What the scanner does at one character, and over a run of characters of one sort.

* `advance_blank`, `advance_paren`, `advance_quote`, `advance_plain`: one character outside quotes.
* `advance_close`, `advance_newline`, `advance_content`: one character inside quotes.
* `moves_advance`: there are no other cases.
* `read_gap`, `read_paren`, `read_plain`, `read_literal`: the parts that texts are made of.
-/

namespace PrefixCalc

/-- The scanner stands outside quotes. -/
def Mode.Unquoted : Mode → Prop
  | .quoted _ _ => False
  | _ => True

theorem Mode.unquoted_or (mode : Mode) :
    mode.Unquoted ∨ ∃ token quote, mode = .quoted token quote := by
  cases mode with
  | quoted token quote => exact .inr ⟨token, quote, rfl⟩
  | _ => exact .inl trivial

namespace Scanner

/-- The characters of the token that is being read. -/
def pending (s : Scanner) : List Char :=
  match s.mode with
  | .gap => []
  | .word token => token.text.toList
  | .quoted token _ => token.text.toList

variable {s : Scanner} {c : Char} {token : Lexeme} {quote : Nat}

theorem unquoted_gap (h : s.mode = .gap) : s.mode.Unquoted := by
  rw [h]; trivial

theorem unquoted_word (h : s.mode = .word token) : s.mode.Unquoted := by
  rw [h]; trivial

theorem ended_gap (h : s.mode = .gap) : s.ended = s.found := by
  simp [ended, h]

theorem ended_word (h : s.mode = .word token) : s.ended = token :: s.found := by
  simp [ended, h]

theorem pending_gap (h : s.mode = .gap) : s.pending = [] := by
  simp [pending, h]

theorem pending_word (h : s.mode = .word token) : s.pending = token.text.toList := by
  simp [pending, h]

theorem pending_quoted (h : s.mode = .quoted token quote) : s.pending = token.text.toList := by
  simp [pending, h]

theorem text_extended (s : Scanner) (c : Char) :
    (s.extended c).text.toList = s.pending ++ [c] := by
  unfold extended pending
  split <;> simp_all

theorem extended_quoted (h : s.mode = .quoted token quote) : s.extended c = token.push c := by
  simp [extended, h]

@[simp] theorem mode_behind {found : List Lexeme} {mode : Mode} :
    (s.behind c found mode).mode = mode := rfl

@[simp] theorem found_behind {found : List Lexeme} {mode : Mode} :
    (s.behind c found mode).found = found := rfl

/-! ## Outside quotes -/

theorem advance_blank (hm : s.mode.Unquoted) (hc : isBlank c = true) :
    s.advance c = .ok (s.behind c s.ended .gap) := by
  unfold advance
  split
  · simp_all [Mode.Unquoted]
  · rw [if_pos hc]

theorem advance_paren (hm : s.mode.Unquoted) (hc : c = '(' ∨ c = ')') :
    s.advance c = .ok (s.behind c (⟨s.offset, String.singleton c⟩ :: s.ended) .gap) := by
  have hb : isBlank c = false := by rcases hc with rfl | rfl <;> decide
  unfold advance
  split
  · simp_all [Mode.Unquoted]
  · rw [if_neg (by simp [hb]), if_pos hc]

theorem advance_quote (hm : s.mode.Unquoted) :
    s.advance '"' = .ok (s.behind '"' s.found (.quoted (s.extended '"') s.position)) := by
  unfold advance
  split
  · simp_all [Mode.Unquoted]
  · rw [if_neg (by decide), if_neg (by decide), if_pos rfl]

theorem advance_plain (hm : s.mode.Unquoted) (hc : isPlain c = true) :
    s.advance c = .ok (s.behind c s.found (.word (s.extended c))) := by
  obtain ⟨hb, ho, hcl, hq⟩ := isPlain_iff.mp hc
  unfold advance
  split
  · simp_all [Mode.Unquoted]
  · rw [if_neg (by simp [hb]), if_neg (by simp [ho, hcl]), if_neg hq]

/-! ## Inside quotes -/

theorem advance_close (h : s.mode = .quoted token quote) :
    s.advance '"' = .ok (s.behind '"' (token.push '"' :: s.found) .gap) := by
  simp [advance, h, extended_quoted h]

theorem advance_newline (h : s.mode = .quoted token quote) :
    s.advance '\n' = .error (.unclosedString quote) := by
  simp [advance, h]

theorem advance_content (h : s.mode = .quoted token quote) (hc : isContent c = true) :
    s.advance c = .ok (s.behind c s.found (.quoted (token.push c) quote)) := by
  obtain ⟨hq, hn⟩ := isContent_iff.mp hc
  simp [advance, h, hq, hn, extended_quoted h]

/-! ## Runs -/

theorem read_cons {s s' : Scanner} {c : Char} (h : s.advance c = .ok s') (cs : List Char) :
    s.read (c :: cs) = s'.read cs := by
  simp only [read, h]

theorem read_append_of_ok {s s' : Scanner} {front : List Char} (h : s.read front = .ok s')
    (back : List Char) : s.read (front ++ back) = s'.read back := by
  rw [read_append, h]

theorem read_gap {g : List Char} (hg : IsGap g) {s : Scanner} (hm : s.mode.Unquoted) :
    ∃ s', s.read g = .ok s' ∧ s'.mode.Unquoted ∧ s'.ended = s.ended ∧
      (s.mode = .gap ∨ g ≠ [] → s'.mode = .gap) := by
  induction g generalizing s with
  | nil => exact ⟨s, rfl, hm, rfl, by simp⟩
  | cons c g ih =>
    obtain ⟨hc, hg⟩ := List.forall_mem_cons.mp hg
    obtain ⟨s', hs', hm', he, hgap⟩ := ih hg (s := s.behind c s.ended .gap) trivial
    refine ⟨s', ?_, hm', ?_, fun _ => hgap (.inl rfl)⟩
    · rw [read_cons (advance_blank hm hc), hs']
    · rw [he, ended_gap rfl, found_behind]

theorem read_plain {w : List Char} (hne : w ≠ []) (hw : ∀ c ∈ w, isPlain c = true) {s : Scanner}
    (hm : s.mode.Unquoted) :
    ∃ s' token, s.read w = .ok s' ∧ s'.mode = .word token ∧
      token.text.toList = s.pending ++ w ∧ s'.found = s.found := by
  induction w generalizing s with
  | nil => exact absurd rfl hne
  | cons c w ih =>
    obtain ⟨hc, hw⟩ := List.forall_mem_cons.mp hw
    have ha := advance_plain hm hc
    cases w with
    | nil => exact ⟨_, _, read_cons ha [], rfl, text_extended s c, rfl⟩
    | cons d w =>
      obtain ⟨s', token, hs', hm', ht, hf⟩ := ih (by simp) hw
        (s := s.behind c s.found (.word (s.extended c))) trivial
      refine ⟨s', token, by rw [read_cons ha, hs'], hm', ?_, hf⟩
      rw [ht, pending_word rfl, text_extended]
      simp

theorem read_content {content : List Char} (hc : ∀ c ∈ content, isContent c = true) {s : Scanner}
    {token : Lexeme} {quote : Nat} (hm : s.mode = .quoted token quote) :
    ∃ s' token', s.read content = .ok s' ∧ s'.mode = .quoted token' quote ∧
      token'.text.toList = token.text.toList ++ content ∧ s'.found = s.found := by
  induction content generalizing s token with
  | nil => exact ⟨s, token, rfl, hm, by simp, rfl⟩
  | cons c content ih =>
    obtain ⟨hc, hcontent⟩ := List.forall_mem_cons.mp hc
    obtain ⟨s', token', hs', hm', ht, hf⟩ := ih hcontent
      (s := s.behind c s.found (.quoted (token.push c) quote)) rfl
    refine ⟨s', token', by rw [read_cons (advance_content hm hc), hs'], hm', ?_, hf⟩
    rw [ht, Lexeme.text_push, String.toList_push]
    simp

theorem read_quoted {content : List Char} (hc : ∀ c ∈ content, isContent c = true) {s : Scanner}
    (hm : s.mode.Unquoted) :
    ∃ s' token, s.read (quotedChars content) = .ok s' ∧ s'.mode = .gap ∧
      token.text.toList = s.pending ++ quotedChars content ∧ s'.found = token :: s.found := by
  obtain ⟨s₁, token, hs₁, hm₁, ht, hf⟩ := read_content hc
    (s := s.behind '"' s.found (.quoted (s.extended '"') s.position)) rfl
  refine ⟨s₁.behind '"' (token.push '"' :: s₁.found) .gap, token.push '"', ?_, rfl, ?_,
    by rw [found_behind, hf, found_behind]⟩
  · rw [quotedChars, read_cons (advance_quote hm), read_append_of_ok hs₁,
      read_cons (advance_close hm₁)]
    rfl
  · rw [Lexeme.text_push, String.toList_push, ht, text_extended]
    simp [quotedChars]

theorem read_paren {c : Char} (hc : c = '(' ∨ c = ')') {s : Scanner} (hm : s.mode.Unquoted) :
    ∃ s', s.read [c] = .ok s' ∧ s'.mode = .gap ∧
      s'.ended.map Lexeme.text = String.singleton c :: s.ended.map Lexeme.text := by
  refine ⟨_, read_cons (advance_paren hm hc) [], rfl, ?_⟩
  rw [ended_gap rfl, found_behind, List.map_cons]

theorem read_literal {w content : List Char} (hw : ∀ c ∈ w, isPlain c = true)
    (hc : ∀ c ∈ content, isContent c = true) {s : Scanner} (hm : s.mode = .gap) :
    ∃ s' token, s.read (w ++ quotedChars content) = .ok s' ∧ s'.mode = .gap ∧
      token.text.toList = w ++ quotedChars content ∧ s'.found = token :: s.found := by
  have hfront : ∃ s₁, s.read w = .ok s₁ ∧ s₁.mode.Unquoted ∧ s₁.pending = w ∧
      s₁.found = s.found := by
    cases w with
    | nil => exact ⟨s, rfl, unquoted_gap hm, pending_gap hm, rfl⟩
    | cons c w =>
      obtain ⟨s₁, token, hs₁, hm₁, ht, hf⟩ := read_plain (by simp) hw (unquoted_gap hm)
      rw [pending_gap hm, List.nil_append] at ht
      exact ⟨s₁, hs₁, unquoted_word hm₁, by rw [pending_word hm₁, ht], hf⟩
  obtain ⟨s₁, hs₁, hm₁, hp₁, hf₁⟩ := hfront
  obtain ⟨s', token, hs', hm', ht, hf⟩ := read_quoted hc hm₁
  exact ⟨s', token, by rw [read_append_of_ok hs₁, hs'], hm', by rw [ht, hp₁], by rw [hf, hf₁]⟩

theorem finish_unquoted {s : Scanner} (hm : s.mode.Unquoted) : s.finish = .ok s.ended.reverse := by
  unfold finish
  split
  · simp_all [Mode.Unquoted]
  · rfl

/-- A text has tokens exactly if the scanner gets to its end and stands outside quotes there. -/
theorem ofText_eq_ok_iff {text : String} {tokens : List Token} :
    Token.ofText text = .ok tokens ↔
      ∃ s, initial.read text.toList = .ok s ∧ s.mode.Unquoted ∧
        s.ended.reverse.map Lexeme.text = tokens := by
  simp only [Token.ofText, Lexeme.ofText]
  cases initial.read text.toList with
  | error e => simp
  | ok s =>
    rcases s.mode.unquoted_or with hm | ⟨token, quote, hm⟩
    · simp [finish_unquoted hm, hm]
    · simp [finish, hm, Mode.Unquoted]

end Scanner

/-! ## The sorts of characters -/

theorem char_cases (c : Char) :
    isBlank c = true ∨ (c = '(' ∨ c = ')') ∨ c = '"' ∨ isPlain c = true := by
  rw [isPlain_iff]
  cases isBlank c <;> grind

theorem content_cases (c : Char) : c = '"' ∨ c = '\n' ∨ isContent c = true := by
  rw [isContent_iff]
  grind

namespace Scanner

/-- All that one character can do to the scanner: four sorts of characters outside quotes, and three
inside. -/
inductive Moves (s : Scanner) : Char → Except ScanError Scanner → Prop where
  | blank {c : Char} : s.mode.Unquoted → isBlank c = true →
      Moves s c (.ok (s.behind c s.ended .gap))
  | paren {c : Char} : s.mode.Unquoted → c = '(' ∨ c = ')' →
      Moves s c (.ok (s.behind c (⟨s.offset, String.singleton c⟩ :: s.ended) .gap))
  | opening : s.mode.Unquoted →
      Moves s '"' (.ok (s.behind '"' s.found (.quoted (s.extended '"') s.position)))
  | plain {c : Char} : s.mode.Unquoted → isPlain c = true →
      Moves s c (.ok (s.behind c s.found (.word (s.extended c))))
  | closing {token : Lexeme} {quote : Nat} : s.mode = .quoted token quote →
      Moves s '"' (.ok (s.behind '"' (token.push '"' :: s.found) .gap))
  | newline {token : Lexeme} {quote : Nat} : s.mode = .quoted token quote →
      Moves s '\n' (.error (.unclosedString quote))
  | content {c : Char} {token : Lexeme} {quote : Nat} : s.mode = .quoted token quote →
      isContent c = true → Moves s c (.ok (s.behind c s.found (.quoted (token.push c) quote)))

theorem moves_advance (s : Scanner) (c : Char) : s.Moves c (s.advance c) := by
  rcases s.mode.unquoted_or with hm | ⟨token, quote, hm⟩
  · rcases char_cases c with hc | hc | rfl | hc
    · rw [advance_blank hm hc]
      exact .blank hm hc
    · rw [advance_paren hm hc]
      exact .paren hm hc
    · rw [advance_quote hm]
      exact .opening hm
    · rw [advance_plain hm hc]
      exact .plain hm hc
  · rcases content_cases c with rfl | rfl | hc
    · rw [advance_close hm]
      exact .closing hm
    · rw [advance_newline hm]
      exact .newline hm
    · rw [advance_content hm hc]
      exact .content hm hc

theorem moves_of_advance {s : Scanner} {c : Char} {r : Except ScanError Scanner}
    (h : s.advance c = r) : s.Moves c r :=
  h ▸ moves_advance s c

end Scanner
end PrefixCalc
