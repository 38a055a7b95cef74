import PrefixCalc.Proofs.Token.Split

/-!
# PrefixCalc.Proofs.Token.Invariant

The invariant of the scanner: what it has read so far is a split into the tokens that are complete,
and behind it the characters of the token that it is reading. `Reads.advance` keeps it over one
character and `Reads.read` over a run; at the end of a text it gives `exists_split`, a split into
the tokens that were found. A text has at most one split, and so the scanner accepts exactly the
lexical grammar (`ofText_eq_ok_iff_split`).
-/

namespace PrefixCalc

/-- The token that is being read is one that can be completed. -/
def Mode.Proper : Mode → Prop
  | .gap => True
  | .word token => token.text.toList ≠ [] ∧ ∀ c ∈ token.text.toList, isPlain c = true
  | .quoted token _ => ∃ w content, (∀ c ∈ w, isPlain c = true) ∧
      (∀ c ∈ content, isContent c = true) ∧ token.text.toList = w ++ '"' :: content

theorem Mode.Proper.isToken {token : Lexeme} {quote : Nat} (h : (Mode.quoted token quote).Proper) :
    IsToken (token.push '"').text.toList := by
  obtain ⟨w, content, hw, hcontent, htext⟩ := h
  have hpush : (token.push '"').text.toList = w ++ quotedChars content := by
    rw [Lexeme.text_push, String.toList_push, htext]
    simp [quotedChars]
  rw [hpush]
  exact .literal hw hcontent

theorem Mode.Proper.push {token : Lexeme} {quote : Nat} {c : Char}
    (h : (Mode.quoted token quote).Proper) (hc : isContent c = true) :
    (Mode.quoted (token.push c) quote).Proper := by
  obtain ⟨w, content, hw, hcontent, htext⟩ := h
  refine ⟨w, content ++ [c], hw, ?_, ?_⟩
  · exact List.forall_mem_append.mpr ⟨hcontent, List.forall_mem_singleton.mpr hc⟩
  · rw [Lexeme.text_push, String.toList_push, htext]
    simp

theorem isClosed_push (token : Lexeme) : IsClosed (token.push '"').text.toList := by
  rw [Lexeme.text_push, String.toList_push]
  exact .inr (by simp)

/-- The invariant of the scanner: what it has read is a split into the complete tokens, to which
any token may be added, and then the characters of the token that it is reading. -/
def Scanner.Reads (s : Scanner) (cs : List Char) : Prop :=
  s.mode.Proper ∧ ∃ p : Split, p.Free ∧ p.tokens = s.found.reverse.map Lexeme.text ∧
    p.chars ++ s.pending = cs

namespace Scanner

theorem reads_initial : initial.Reads [] :=
  ⟨trivial, Split.empty, Split.free_empty, rfl, rfl⟩

theorem plain_pending {s : Scanner} (h : s.mode.Proper) (hm : s.mode.Unquoted) :
    ∀ c ∈ s.pending, isPlain c = true := by
  unfold pending
  cases hmode : s.mode with
  | gap => simp
  | word token =>
    rw [hmode] at h
    exact h.2
  | quoted token quote => simp [hmode, Mode.Unquoted] at hm

/-- Outside quotes the text may end: the token that is being read is complete. -/
theorem Reads.ended {s : Scanner} {cs : List Char} (h : s.Reads cs) (hm : s.mode.Unquoted) :
    ∃ p : Split, p.tokens = s.ended.reverse.map Lexeme.text ∧ p.chars = cs := by
  obtain ⟨hproper, p, hfree, ht, hcs⟩ := h
  cases hmode : s.mode with
  | gap =>
    rw [pending_gap hmode, List.append_nil] at hcs
    exact ⟨p, by rw [ended_gap hmode, ht], hcs⟩
  | word token =>
    rw [hmode] at hproper
    rw [pending_word hmode] at hcs
    refine ⟨p.snoc token.text (.word hproper.1 hproper.2) (.inl hfree), ?_, ?_⟩
    · rw [Split.tokens_snoc, ht, ended_word hmode]
      simp
    · rw [Split.chars_snoc, hcs]
  | quoted token quote => simp [hmode, Mode.Unquoted] at hm

/-- One character keeps the invariant. -/
theorem Reads.advance {s s' : Scanner} {cs : List Char} {c : Char} (h : s.Reads cs)
    (ha : s.advance c = .ok s') : s'.Reads (cs ++ [c]) := by
  cases moves_of_advance ha with
  | blank hm hc =>
    obtain ⟨p, ht, hcs⟩ := h.ended hm
    refine ⟨trivial, p.blank c hc, p.free_blank, ?_, ?_⟩
    · rw [Split.tokens_blank, ht, found_behind]
    · rw [Split.chars_blank, hcs, pending_gap rfl, List.append_nil]
  | paren hm hc =>
    obtain ⟨p, ht, hcs⟩ := h.ended hm
    have hparen := isParen_singleton hc
    refine ⟨trivial, p.snoc _ hparen.isToken (.inr hparen), p.free_snoc (.inl hparen), ?_, ?_⟩
    · rw [Split.tokens_snoc, ht]
      simp
    · rw [Split.chars_snoc, hcs, pending_gap rfl, String.toList_singleton, List.append_nil]
  | opening hm =>
    obtain ⟨hproper, p, hfree, ht, hcs⟩ := h
    refine ⟨⟨s.pending, [], plain_pending hproper hm, by simp, text_extended s '"'⟩,
      p, hfree, ht, ?_⟩
    rw [pending_quoted rfl, text_extended, ← List.append_assoc, hcs]
  | plain hm hc =>
    obtain ⟨hproper, p, hfree, ht, hcs⟩ := h
    refine ⟨⟨by simp [text_extended], ?_⟩, p, hfree, ht, ?_⟩
    · rw [text_extended]
      exact List.forall_mem_append.mpr
        ⟨plain_pending hproper hm, List.forall_mem_singleton.mpr hc⟩
    · rw [pending_word rfl, text_extended, ← List.append_assoc, hcs]
  | closing hm =>
    obtain ⟨hproper, p, hfree, ht, hcs⟩ := h
    rw [hm] at hproper
    rw [pending_quoted hm] at hcs
    refine ⟨trivial, p.snoc _ hproper.isToken (.inl hfree), p.free_snoc (isClosed_push _), ?_, ?_⟩
    · rw [Split.tokens_snoc, ht]
      simp
    · rw [Split.chars_snoc, pending_gap rfl, Lexeme.text_push, String.toList_push, ← hcs]
      simp
  | content hm hc =>
    obtain ⟨hproper, p, hfree, ht, hcs⟩ := h
    rw [hm] at hproper
    rw [pending_quoted hm] at hcs
    refine ⟨hproper.push hc, p, hfree, ht, ?_⟩
    rw [pending_quoted rfl, Lexeme.text_push, String.toList_push, ← hcs]
    simp

theorem Reads.read {s s' : Scanner} {cs ds : List Char} (h : s.Reads cs)
    (hr : s.read ds = .ok s') : s'.Reads (cs ++ ds) := by
  induction ds generalizing s cs with
  | nil =>
    cases hr
    rwa [List.append_nil]
  | cons d ds ih =>
    simp only [Scanner.read] at hr
    split at hr
    · cases hr
    · rename_i s₁ ha
      have h₁ := ih (h.advance ha) hr
      rwa [List.append_assoc, List.singleton_append] at h₁

end Scanner

/-- A text that the scanner gives tokens for has a split into these. -/
theorem exists_split {text : String} {tokens : List Token} (h : Token.ofText text = .ok tokens) :
    ∃ p : Split, p.text = text ∧ p.tokens = tokens := by
  obtain ⟨s, hs, hm, rfl⟩ := Scanner.ofText_eq_ok_iff.mp h
  obtain ⟨p, ht, hcs⟩ := (Scanner.reads_initial.read hs).ended hm
  refine ⟨p, ?_, ht⟩
  rw [Split.text, hcs, List.nil_append, String.ofList_toList]

theorem isToken_of_ofText {text : String} {tokens : List Token}
    (h : Token.ofText text = .ok tokens) : ∀ t ∈ tokens, IsToken t.toList := by
  obtain ⟨p, -, rfl⟩ := exists_split h
  intro t ht
  obtain ⟨q, -, rfl⟩ := List.mem_map.mp ht
  exact q.isToken

/-- The texts without tokens are the gaps. -/
theorem ofText_eq_nil_iff {text : String} : Token.ofText text = .ok [] ↔ IsGap text.toList := by
  constructor
  · intro h
    obtain ⟨p, rfl, ht⟩ := exists_split h
    have hpieces : p.pieces = [] := List.map_eq_nil_iff.mp ht
    rw [Split.text, String.toList_ofList, Split.chars, hpieces]
    exact p.isGap
  · intro h
    have hs := ofText_split ⟨[], text.toList, .nil, h⟩
    rwa [Split.text, Split.chars, List.flatMap_nil, List.nil_append, String.ofList_toList] at hs

/-! ## There is one split -/

theorem takeWhile_gap {g t : List Char} (hg : IsGap g) (ht : IsToken t) (rest : List Char) :
    (g ++ (t ++ rest)).takeWhile isBlank = g := by
  obtain ⟨c, cs, rfl⟩ := List.exists_cons_of_ne_nil ht.ne_nil
  rw [List.takeWhile_append_of_pos hg, List.cons_append,
    List.takeWhile_cons_of_neg (by simp [ht.isBlank_head]), List.append_nil]

/-- Tokens do not start with a blank, so the gaps in front of them can be told. -/
theorem pieces_inj {ps qs : List Piece} {g g' : List Char}
    (ht : ps.map Piece.token = qs.map Piece.token)
    (hcs : ps.flatMap Piece.chars ++ g = qs.flatMap Piece.chars ++ g') : ps = qs ∧ g = g' := by
  induction ps generalizing qs with
  | nil =>
    obtain rfl := List.map_eq_nil_iff.mp ht.symm
    exact ⟨rfl, hcs⟩
  | cons p ps ih =>
    obtain ⟨q, qs, rfl, htoken, ht⟩ := List.map_eq_cons_iff.mp ht.symm
    simp only [List.flatMap_cons, Piece.chars, List.append_assoc] at hcs
    have hgap : p.gap = q.gap := by
      have htake := congrArg (List.takeWhile isBlank) hcs
      rwa [takeWhile_gap p.isGap p.isToken, takeWhile_gap q.isGap q.isToken] at htake
    rw [hgap, htoken] at hcs
    obtain ⟨rfl, hg⟩ := ih ht.symm (List.append_cancel_left (List.append_cancel_left hcs))
    exact ⟨by rw [Piece.ext hgap htoken.symm], hg⟩

theorem Split.text_injective : Function.Injective Split.text := by
  intro p q h
  have ht : p.tokens = q.tokens := by
    have hp := ofText_split p
    rw [h, ofText_split q] at hp
    exact (Except.ok.inj hp).symm
  have hcs : p.chars = q.chars := by
    rw [← String.toList_ofList (l := p.chars), ← String.toList_ofList (l := q.chars)]
    exact congrArg String.toList h
  obtain ⟨hpieces, htrail⟩ := pieces_inj ht hcs
  exact Split.ext hpieces htrail

/-- The scanner accepts the texts of the lexical grammar, and no others: it gives the tokens of
the one way to cut a text into tokens and gaps. -/
theorem ofText_eq_ok_iff_split :
    (∀ (text : String) (tokens : List Token),
      Token.ofText text = .ok tokens ↔ ∃ p : Split, p.text = text ∧ p.tokens = tokens) ∧
    Function.Injective Split.text := by
  refine ⟨fun text tokens => ⟨exists_split, ?_⟩, Split.text_injective⟩
  rintro ⟨p, rfl, rfl⟩
  exact ofText_split p

/-- A literal is part of the word in front of it, but not of the one behind. -/
example : Token.ofText "ab\"c d\"e(f" = .ok ["ab\"c d\"", "e", "(", "f"] := by rfl

end PrefixCalc
