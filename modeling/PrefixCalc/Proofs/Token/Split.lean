import Mathlib.Data.List.Chain
import PrefixCalc.Proofs.Token.Steps

/-!
# PrefixCalc.Proofs.Token.Split

Texts that are cut into tokens by the lexical grammar, said without the scanner, and the scanner
on such a text: `ofText_split` says that it gives the tokens of the split.
-/

namespace PrefixCalc

/-- A token with the gap in front of it. -/
@[ext]
structure Piece where
  gap : List Char
  token : Token
  isGap : IsGap gap
  isToken : IsToken token.toList

namespace Piece

def chars (p : Piece) : List Char :=
  p.gap ++ p.token.toList

/-- The second piece may stand right behind the first: there is a gap between the tokens, or none
is needed. -/
def Meets (p q : Piece) : Prop :=
  q.gap ≠ [] ∨ IsClosed p.token.toList ∨ IsParen q.token.toList

end Piece

/-- A text, cut into tokens with the gaps in front of them and a gap at the end. -/
@[ext]
structure Split where
  pieces : List Piece
  trail : List Char
  isChain : pieces.IsChain Piece.Meets
  isGap : IsGap trail

namespace Split

def chars (p : Split) : List Char :=
  p.pieces.flatMap Piece.chars ++ p.trail

/-- The text that is cut. -/
def text (p : Split) : String :=
  String.ofList p.chars

def tokens (p : Split) : List Token :=
  p.pieces.map Piece.token

/-- Any token may follow at once: what is there ends in a blank or a closed token. -/
def Free (p : Split) : Prop :=
  p.trail ≠ [] ∨ ∀ q ∈ p.pieces.getLast?, IsClosed q.token.toList

/-! ## Longer splits -/

def empty : Split where
  pieces := []
  trail := []
  isChain := .nil
  isGap := by simp [IsGap]

/-- The split of the text with one more blank. -/
def blank (p : Split) (c : Char) (hc : isBlank c = true) : Split where
  pieces := p.pieces
  trail := p.trail ++ [c]
  isChain := p.isChain
  isGap := List.forall_mem_append.mpr ⟨p.isGap, List.forall_mem_singleton.mpr hc⟩

/-- The split of the text with one more token. -/
def snoc (p : Split) (t : Token) (ht : IsToken t.toList) (h : p.Free ∨ IsParen t.toList) :
    Split where
  pieces := p.pieces ++ [⟨p.trail, t, p.isGap, ht⟩]
  trail := []
  isChain := by
    refine List.isChain_append.mpr ⟨p.isChain, .singleton _, ?_⟩
    intro q hq r hr
    cases hr
    rcases h with (h | h) | h
    · exact .inl h
    · exact .inr (.inl (h q hq))
    · exact .inr (.inr h)
  isGap := by simp [IsGap]

theorem free_empty : empty.Free := by
  simp [Free, empty]

section
variable (p : Split) {c : Char} {hc : isBlank c = true} {t : Token} {ht : IsToken t.toList}
  {h : p.Free ∨ IsParen t.toList}

theorem chars_blank : (p.blank c hc).chars = p.chars ++ [c] := by
  simp [blank, chars]

theorem tokens_blank : (p.blank c hc).tokens = p.tokens := rfl

theorem free_blank : (p.blank c hc).Free := by
  simp [Free, blank]

theorem chars_snoc : (p.snoc t ht h).chars = p.chars ++ t.toList := by
  simp [snoc, chars, Piece.chars]

theorem tokens_snoc : (p.snoc t ht h).tokens = p.tokens ++ [t] := by
  simp [snoc, tokens]

theorem free_snoc (hcl : IsClosed t.toList) : (p.snoc t ht h).Free := by
  simpa [Free, snoc] using hcl

end
end Split

/-! ## The scanner reads the tokens of a split -/

theorem not_isClosed_of_plain {w : List Char} (hw : ∀ c ∈ w, isPlain c = true) : ¬ IsClosed w := by
  have hp : ∀ c ∈ w, c ≠ '(' ∧ c ≠ ')' ∧ c ≠ '"' := fun c hc => (isPlain_iff.mp (hw c hc)).2
  rintro ((rfl | rfl) | h)
  · exact (hp '(' (by simp)).1 rfl
  · exact (hp ')' (by simp)).2.1 rfl
  · exact (hp '"' (List.mem_of_getLast? h)).2.2 rfl

namespace Scanner

/-- A token is read where no other one is open, and a parenthesis also behind a word. -/
theorem read_token {t : Token} (ht : IsToken t.toList) {s : Scanner} (hm : s.mode.Unquoted)
    (h : s.mode = .gap ∨ IsParen t.toList) :
    ∃ s', s.read t.toList = .ok s' ∧ s'.mode.Unquoted ∧
      s'.ended.map Lexeme.text = t :: s.ended.map Lexeme.text ∧
      (IsClosed t.toList → s'.mode = .gap) := by
  generalize hcs : t.toList = cs at ht h
  rw [← String.ofList_toList (s := t), hcs]
  cases ht with
  | opening =>
    obtain ⟨s', hs', hm', he⟩ := read_paren (.inl rfl) hm
    exact ⟨s', hs', unquoted_gap hm', he, fun _ => hm'⟩
  | closing =>
    obtain ⟨s', hs', hm', he⟩ := read_paren (.inr rfl) hm
    exact ⟨s', hs', unquoted_gap hm', he, fun _ => hm'⟩
  | word hne hw =>
    have hgap : s.mode = .gap := h.resolve_right fun hp => not_isClosed_of_plain hw (.inl hp)
    obtain ⟨s', token, hs', hm', htext, hf⟩ := read_plain hne hw hm
    rw [pending_gap hgap, List.nil_append] at htext
    refine ⟨s', hs', unquoted_word hm', ?_, fun hcl => absurd hcl (not_isClosed_of_plain hw)⟩
    rw [ended_word hm', hf, ended_gap hgap, List.map_cons, ← htext, String.ofList_toList]
  | @literal w content hw hc =>
    have hgap : s.mode = .gap := by
      refine h.resolve_right fun hp => ?_
      have hq : '"' ∈ w ++ quotedChars content := by simp [quotedChars]
      rcases hp with hp | hp <;> rw [hp] at hq <;> simp at hq
    obtain ⟨s', token, hs', hm', htext, hf⟩ := read_literal hw hc hgap
    refine ⟨s', hs', unquoted_gap hm', ?_, fun _ => hm'⟩
    rw [ended_gap hm', hf, ended_gap hgap, List.map_cons, ← htext, String.ofList_toList]

theorem read_pieces {pieces : List Piece} (hp : pieces.IsChain Piece.Meets) {s : Scanner}
    (hm : s.mode.Unquoted)
    (h : ∀ q ∈ pieces.head?, s.mode = .gap ∨ q.gap ≠ [] ∨ IsParen q.token.toList) :
    ∃ s', s.read (pieces.flatMap Piece.chars) = .ok s' ∧ s'.mode.Unquoted ∧
      s'.ended.map Lexeme.text = (pieces.map Piece.token).reverse ++ s.ended.map Lexeme.text := by
  induction pieces generalizing s with
  | nil => exact ⟨s, rfl, hm, by simp⟩
  | cons q pieces ih =>
    obtain ⟨hmeets, hp⟩ := List.isChain_cons.mp hp
    obtain ⟨s₁, hs₁, hm₁, he₁, hgap₁⟩ := read_gap q.isGap hm
    have hq : s₁.mode = .gap ∨ IsParen q.token.toList := by
      rcases h q rfl with h | h | h
      · exact .inl (hgap₁ (.inl h))
      · exact .inl (hgap₁ (.inr h))
      · exact .inr h
    obtain ⟨s₂, hs₂, hm₂, he₂, hgap₂⟩ := read_token q.isToken hm₁ hq
    have hnext : ∀ r ∈ pieces.head?, s₂.mode = .gap ∨ r.gap ≠ [] ∨ IsParen r.token.toList := by
      intro r hr
      rcases hmeets r hr with h | h | h
      · exact .inr (.inl h)
      · exact .inl (hgap₂ h)
      · exact .inr (.inr h)
    obtain ⟨s₃, hs₃, hm₃, he₃⟩ := ih hp hm₂ hnext
    refine ⟨s₃, ?_, hm₃, ?_⟩
    · rw [List.flatMap_cons, Piece.chars, List.append_assoc, read_append_of_ok hs₁,
        read_append_of_ok hs₂, hs₃]
    · rw [he₃, he₂, he₁]
      simp

end Scanner

/-- The scanner gives the tokens of a split. -/
theorem ofText_split (p : Split) : Token.ofText p.text = .ok p.tokens := by
  obtain ⟨s, hs, hm, he⟩ := Scanner.read_pieces p.isChain (s := .initial) trivial
    (fun _ _ => .inl rfl)
  obtain ⟨s', hs', hm', he', -⟩ := Scanner.read_gap p.isGap hm
  refine Scanner.ofText_eq_ok_iff.mpr ⟨s', ?_, hm', ?_⟩
  · rw [Split.text, String.toList_ofList, Split.chars, Scanner.read_append_of_ok hs, hs']
  · rw [List.map_reverse, he', he]
    simp [Split.tokens, Scanner.ended, Scanner.initial]

theorem ofText_token {t : Token} (ht : IsToken t.toList) : Token.ofText t = .ok [t] := by
  obtain ⟨s, hs, hm, he, -⟩ := Scanner.read_token ht (s := .initial) trivial (.inl rfl)
  refine Scanner.ofText_eq_ok_iff.mpr ⟨s, hs, hm, ?_⟩
  rw [List.map_reverse, he]
  rfl

end PrefixCalc
