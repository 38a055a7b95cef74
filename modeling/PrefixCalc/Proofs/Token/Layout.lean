import PrefixCalc.Proofs.Token.Steps

/-!
# PrefixCalc.Proofs.Token.Layout

The places of lexemes. What the scanner has read is laid out as blanks and lexemes, and each of these
starts at the offset that it holds (`Laid`). The invariant `Stands` says so of a scanner, and adds the
token that is being read; `Stands.advance` keeps it over one character and `Stands.read` over a run.

* `Stands.place`: a lexeme is a part of what was read, and is not empty.
* `Stands.pairwise`: no lexeme starts before the end of another that is farther to the left.
* `Stands.start_of_token`: the token that is being read starts behind all of them.
* `Stands.cover`: a character outside all lexemes, in front of that token, is a blank.
-/

namespace PrefixCalc

/-- The text `front` is `done` with this lexeme at its end. -/
structure Lexeme.Ends (l : Lexeme) (done front : String) : Prop where
  start_eq : l.start = done.utf8ByteSize
  text_ne : l.text ≠ ""
  front_eq : front = done ++ l.text

/-- The text is made of these lexemes, the latest first, and of blanks. -/
inductive Laid : String → List Lexeme → Prop where
  | nil : Laid "" []
  | blank {done : String} {ls : List Lexeme} {c : Char} : Laid done ls → isBlank c = true →
      Laid (done.push c) ls
  | lexeme {done front : String} {ls : List Lexeme} {l : Lexeme} : Laid done ls →
      l.Ends done front → Laid front (l :: ls)

variable {done front : String} {ls : List Lexeme} {l : Lexeme} {c : Char}

namespace Lexeme.Ends

theorem stop_eq (h : l.Ends done front) : l.stop = front.utf8ByteSize := by
  rw [Lexeme.stop, h.start_eq, h.front_eq, String.utf8ByteSize_append]

theorem start_lt_stop (h : l.Ends done front) : l.start < l.stop := by
  have hpos : 0 < l.text.utf8ByteSize :=
    Nat.pos_of_ne_zero (mt String.utf8ByteSize_eq_zero_iff.mp h.text_ne)
  exact Nat.lt_add_of_pos_right hpos

theorem push (h : l.Ends done front) (c : Char) : (l.push c).Ends done (front.push c) where
  start_eq := h.start_eq
  text_ne := String.push_ne_empty
  front_eq := by rw [h.front_eq, Lexeme.text_push, String.push_eq_append, String.push_eq_append,
    String.append_assoc]

theorem singleton (front : String) (c : Char) :
    Lexeme.Ends ⟨front.utf8ByteSize, String.singleton c⟩ front (front.push c) where
  start_eq := rfl
  text_ne := by simp
  front_eq := String.push_eq_append c

end Lexeme.Ends

/-! ## What is laid out -/

theorem append_ofList_cons (front : String) (c : Char) (cs : List Char) :
    front ++ String.ofList (c :: cs) = front.push c ++ String.ofList cs := by
  simp [← String.toList_inj]

/-- A character of two joined texts is one of the first or one of the second. -/
theorem mem_append_cases {a b s t : String} (h : s ++ t = a.push c ++ b) :
    (∃ b', s = a.push c ++ b') ∨ ∃ t', a = s ++ t' ∧ t = t'.push c ++ b := by
  simp only [← String.toList_inj, String.toList_append, String.toList_push] at h ⊢
  rcases List.append_eq_append_iff.mp h with ⟨x, hx, ht⟩ | ⟨x, hs, -⟩
  · rcases List.eq_nil_or_concat x with rfl | ⟨t', d, rfl⟩
    · exact .inl ⟨"", by simpa using hx.symm⟩
    · rw [List.concat_eq_append, ← List.append_assoc] at hx
      obtain ⟨ha, hc⟩ := List.append_inj' hx rfl
      cases hc
      exact .inr ⟨String.ofList t', by simpa using ha, by simpa using ht⟩
  · exact .inl ⟨String.ofList x, by simpa using hs⟩

namespace Laid

/-- A lexeme is a part of the text, and is not empty. -/
theorem place (h : Laid front ls) :
    ∀ l ∈ ls, ∃ done upTo back, front = upTo ++ back ∧ l.Ends done upTo := by
  induction h with
  | nil => simp
  | @blank done ls c _ _ ih =>
    intro l hl
    obtain ⟨start, upTo, back, rfl, hends⟩ := ih l hl
    refine ⟨start, upTo, back.push c, ?_, hends⟩
    rw [String.push_eq_append, String.push_eq_append, String.append_assoc]
  | @lexeme done front ls k _ hk ih =>
    intro l hl
    rcases List.mem_cons.mp hl with rfl | hl
    · exact ⟨done, front, "", String.append_empty.symm, hk⟩
    · obtain ⟨start, upTo, back, rfl, hends⟩ := ih l hl
      refine ⟨start, upTo, back ++ k.text, ?_, hends⟩
      rw [hk.front_eq, String.append_assoc]

theorem stop_le (h : Laid front ls) : ∀ l ∈ ls, l.stop ≤ front.utf8ByteSize := by
  intro l hl
  obtain ⟨done, upTo, back, rfl, hplace⟩ := h.place l hl
  rw [hplace.stop_eq, String.utf8ByteSize_append]
  exact Nat.le_add_right ..

theorem pairwise (h : Laid front ls) : ls.Pairwise fun l k => k.stop ≤ l.start := by
  induction h with
  | nil => exact .nil
  | blank _ _ ih => exact ih
  | lexeme hdone hl ih =>
    refine .cons ?_ ih
    intro k hk
    rw [hl.start_eq]
    exact hdone.stop_le k hk

/-- A character outside all lexemes is a blank. -/
theorem cover (h : Laid front ls) {a b : String} (hfront : front = a.push c ++ b) :
    (∃ l ∈ ls, l.start ≤ a.utf8ByteSize ∧ a.utf8ByteSize < l.stop) ∨ isBlank c = true := by
  induction h generalizing b with
  | nil =>
    have hc : c ∈ "".toList := by
      rw [hfront]
      simp
    cases hc
  | @blank done ls d _ hd ih =>
    rw [String.push_eq_append] at hfront
    rcases mem_append_cases hfront with ⟨b', hdone⟩ | ⟨t', -, hdone⟩
    · exact ih hdone
    · have hc : c ∈ (String.singleton d).toList := by
        rw [hdone]
        simp
      obtain rfl : c = d := by simpa using hc
      exact .inr hd
  | @lexeme done front ls l _ hl ih =>
    rcases mem_append_cases (hl.front_eq.symm.trans hfront) with ⟨b', hdone⟩ | ⟨t', ha, -⟩
    · rcases ih hdone with ⟨k, hk, hplace⟩ | hblank
      · exact .inl ⟨k, List.mem_cons_of_mem _ hk, hplace⟩
      · exact .inr hblank
    · refine .inl ⟨l, List.mem_cons_self .., ?_, ?_⟩
      · rw [hl.start_eq, ha, String.utf8ByteSize_append]
        exact Nat.le_add_right ..
      · rw [hl.stop_eq, hfront, String.utf8ByteSize_append, String.utf8ByteSize_push]
        have := c.utf8Size_pos
        omega

end Laid

/-! ## The scanner -/

/-- The token that is being read. -/
def Mode.token? : Mode → Option Lexeme
  | .gap => none
  | .word token => some token
  | .quoted token _ => some token

/-- Behind `done`, the scanner has read the token that it stands in, if it stands in one. -/
def Mode.Ends (mode : Mode) (done front : String) : Prop :=
  match mode.token? with
  | none => front = done
  | some token => token.Ends done front

theorem Mode.Ends.exists_append {mode : Mode} (h : mode.Ends done front) :
    ∃ rest, front = done ++ rest := by
  unfold Mode.Ends at h
  split at h
  · exact ⟨"", by rw [h, String.append_empty]⟩
  · exact ⟨_, h.front_eq⟩

/-- The scanner has read `front`, laid out as it says. -/
structure Scanner.Stands (s : Scanner) (front : String) : Prop where
  offset_eq : s.offset = front.utf8ByteSize
  laid : ∃ done, Laid done s.found ∧ s.mode.Ends done front

namespace Scanner.Stands

variable {s s' : Scanner}

theorem initial : Scanner.initial.Stands "" :=
  ⟨rfl, "", .nil, rfl⟩

theorem ended (h : s.Stands front) (hm : s.mode.Unquoted) : Laid front s.ended := by
  obtain ⟨-, done, hlaid, hends⟩ := h
  cases hmode : s.mode with
  | gap =>
    rw [hmode] at hends
    rw [ended_gap hmode]
    exact hends ▸ hlaid
  | word token =>
    rw [hmode] at hends
    rw [ended_word hmode]
    exact hlaid.lexeme hends
  | quoted token quote => simp [hmode, Mode.Unquoted] at hm

theorem extended (h : s.Stands front) (c : Char) :
    ∃ done, Laid done s.found ∧ (s.extended c).Ends done (front.push c) := by
  obtain ⟨hoffset, done, hlaid, hends⟩ := h
  refine ⟨done, hlaid, ?_⟩
  unfold Scanner.extended
  cases hmode : s.mode with
  | gap =>
    rw [hmode] at hends
    obtain rfl : front = done := hends
    rw [hoffset]
    exact .singleton front c
  | _ =>
    rw [hmode] at hends
    exact hends.push c

/-- One character keeps the layout. -/
theorem advance (h : s.Stands front) (ha : s.advance c = .ok s') : s'.Stands (front.push c) := by
  refine ⟨?_, ?_⟩
  · rw [(place_of_advance ha).2, h.offset_eq, String.utf8ByteSize_push]
  · cases moves_of_advance ha with
    | blank hm hc => exact ⟨_, (h.ended hm).blank hc, rfl⟩
    | paren hm _ =>
      have hparen := Lexeme.Ends.singleton front c
      rw [← h.offset_eq] at hparen
      exact ⟨_, (h.ended hm).lexeme hparen, rfl⟩
    | opening _ => exact h.extended '"'
    | plain _ _ => exact h.extended c
    | closing hm =>
      obtain ⟨done, hlaid, hends⟩ := h.extended '"'
      rw [extended_quoted hm] at hends
      exact ⟨_, hlaid.lexeme hends, rfl⟩
    | content hm _ =>
      obtain ⟨done, hlaid, hends⟩ := h.extended c
      rw [extended_quoted hm] at hends
      exact ⟨done, hlaid, hends⟩

theorem read {cs : List Char} (h : s.Stands front) (hs : s.read cs = .ok s') :
    s'.Stands (front ++ String.ofList cs) := by
  induction cs generalizing s front with
  | nil =>
    cases hs
    rw [String.ofList_nil, String.append_empty]
    exact h
  | cons c cs ih =>
    simp only [Scanner.read] at hs
    split at hs
    · cases hs
    · rename_i s₁ ha
      rw [append_ofList_cons]
      exact ih (h.advance ha) hs

theorem place (h : s.Stands front) :
    ∀ l ∈ s.found, ∃ done upTo back, front = upTo ++ back ∧ l.Ends done upTo := by
  intro l hl
  obtain ⟨-, done, hlaid, hends⟩ := h
  obtain ⟨rest, rfl⟩ := hends.exists_append
  obtain ⟨start, upTo, back, rfl, hplace⟩ := hlaid.place l hl
  exact ⟨start, upTo, back ++ rest, String.append_assoc, hplace⟩

theorem stop_le (h : s.Stands front) : ∀ l ∈ s.found, l.stop ≤ front.utf8ByteSize := by
  intro l hl
  obtain ⟨-, done, hlaid, hends⟩ := h
  obtain ⟨rest, rfl⟩ := hends.exists_append
  rw [String.utf8ByteSize_append]
  exact Nat.le_add_right_of_le (hlaid.stop_le l hl)

theorem pairwise (h : s.Stands front) : s.found.Pairwise fun l k => k.stop ≤ l.start := by
  obtain ⟨-, done, hlaid, -⟩ := h
  exact hlaid.pairwise

/-- The token that is being read starts at a character of what was read, behind all lexemes. -/
theorem start_of_token {token : Lexeme} (h : s.Stands front) (htoken : s.mode.token? = some token) :
    (∀ l ∈ s.found, l.stop ≤ token.start) ∧
      ∃ done c rest, front = String.push done c ++ rest ∧ token.start = done.utf8ByteSize := by
  obtain ⟨-, done, hlaid, hends⟩ := h
  simp only [Mode.Ends, htoken] at hends
  refine ⟨?_, ?_⟩
  · rw [hends.start_eq]
    exact hlaid.stop_le
  · obtain ⟨c, cs, hcs⟩ := List.exists_cons_of_ne_nil (mt String.toList_eq_nil_iff.mp hends.text_ne)
    refine ⟨done, c, String.ofList cs, ?_, hends.start_eq⟩
    rw [hends.front_eq, ← append_ofList_cons, ← hcs, String.ofList_toList]

/-- A character in front of the token that is being read is in a lexeme or is a blank. -/
theorem cover {a b : String} (h : s.Stands front) (hfront : front = a.push c ++ b) :
    (∃ l ∈ s.found, l.start ≤ a.utf8ByteSize ∧ a.utf8ByteSize < l.stop) ∨
      (∃ token, s.mode.token? = some token ∧ token.start ≤ a.utf8ByteSize) ∨
      isBlank c = true := by
  obtain ⟨-, done, hlaid, hends⟩ := h
  cases htoken : s.mode.token? with
  | none =>
    simp only [Mode.Ends, htoken] at hends
    exact (hlaid.cover (hends.symm.trans hfront)).imp_right .inr
  | some token =>
    simp only [Mode.Ends, htoken] at hends
    rcases mem_append_cases (hends.front_eq.symm.trans hfront) with ⟨x, hdone⟩ | ⟨x, ha, -⟩
    · exact (hlaid.cover hdone).imp_right .inr
    · refine .inr (.inl ⟨token, rfl, ?_⟩)
      rw [hends.start_eq, ha, String.utf8ByteSize_append]
      exact Nat.le_add_right ..

theorem of_read {text : String} (hs : Scanner.initial.read text.toList = .ok s) :
    s.Stands text := by
  have h := initial.read hs
  rw [String.empty_append, String.ofList_toList] at h
  exact h

end Scanner.Stands
end PrefixCalc
