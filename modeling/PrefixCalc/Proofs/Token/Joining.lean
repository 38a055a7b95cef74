import PrefixCalc.Proofs.Token.Steps

/-!
# PrefixCalc.Proofs.Token.Joining

Texts one behind the other. A scanner that stands between tokens goes on as one at the start of a
text does, only farther on (`read_resume`). So where a blank or a parenthesis ends what stands in
front, the two parts are scanned by themselves (`ofText_delimiter`), and so they are where blanks
stand between them (`ofText_gap`).
-/

namespace PrefixCalc

/-! ## Farther on -/

def Lexeme.shift (offset : Nat) (l : Lexeme) : Lexeme :=
  { l with start := offset + l.start }

def Mode.shift (position offset : Nat) : Mode → Mode
  | .gap => .gap
  | .word token => .word (token.shift offset)
  | .quoted token quote => .quoted (token.shift offset) (position + quote)

/-- The error at a place that is `position` characters farther on. -/
def ScanError.shift (position : Nat) : ScanError → ScanError
  | .unclosedString quote => .unclosedString (position + quote)

namespace Scanner

/-- The scanner `t`, with what `s` has read in front of it. -/
def resume (s t : Scanner) : Scanner where
  position := s.position + t.position
  offset := s.offset + t.offset
  found := t.found.map (Lexeme.shift s.offset) ++ s.found
  mode := t.mode.shift s.position s.offset

variable (s t : Scanner) (c : Char)

theorem resume_initial (h : s.mode = .gap) : s.resume initial = s := by
  obtain ⟨position, offset, found, mode⟩ := s
  subst h
  simp [resume, initial, Mode.shift]

theorem ended_resume : (s.resume t).ended = t.ended.map (Lexeme.shift s.offset) ++ s.found := by
  unfold ended resume
  cases t.mode <;> simp [Mode.shift]

theorem extended_resume : (s.resume t).extended c = (t.extended c).shift s.offset := by
  unfold extended resume
  cases t.mode <;> simp [Mode.shift, Lexeme.shift, Lexeme.push]

theorem behind_resume (found : List Lexeme) (mode : Mode) :
    s.resume (t.behind c found mode) =
      (s.resume t).behind c (found.map (Lexeme.shift s.offset) ++ s.found)
        (mode.shift s.position s.offset) := by
  simp [behind, resume, Nat.add_assoc]

theorem unquoted_shift {mode : Mode} {position offset : Nat} (h : mode.Unquoted) :
    (mode.shift position offset).Unquoted := by
  cases mode with
  | quoted token quote => exact h
  | _ => trivial

theorem advance_resume :
    (s.resume t).advance c =
      match t.advance c with
      | .error e => .error (e.shift s.position)
      | .ok t' => .ok (s.resume t') := by
  have hunquoted (hm : t.mode.Unquoted) : (s.resume t).mode.Unquoted := unquoted_shift hm
  have hquoted {token : Lexeme} {quote : Nat} (hm : t.mode = .quoted token quote) :
      (s.resume t).mode = .quoted (token.shift s.offset) (s.position + quote) := by
    simp [resume, hm, Mode.shift]
  have hmoves := t.moves_advance c
  generalize t.advance c = r at hmoves ⊢
  cases hmoves with
  | blank hm hc =>
    simp only [advance_blank (hunquoted hm) hc, ended_resume, behind_resume]
    rfl
  | paren hm hc =>
    simp only [advance_paren (hunquoted hm) hc, ended_resume, behind_resume]
    rfl
  | opening hm =>
    simp only [advance_quote (hunquoted hm), extended_resume, behind_resume]
    rfl
  | plain hm hc =>
    simp only [advance_plain (hunquoted hm) hc, extended_resume, behind_resume]
    rfl
  | closing hm =>
    simp only [advance_close (hquoted hm), behind_resume]
    rfl
  | newline hm => exact advance_newline (hquoted hm)
  | content hm hc =>
    simp only [advance_content (hquoted hm) hc, behind_resume]
    rfl

theorem read_resume (cs : List Char) :
    (s.resume t).read cs =
      match t.read cs with
      | .error e => .error (e.shift s.position)
      | .ok t' => .ok (s.resume t') := by
  induction cs generalizing t with
  | nil => rfl
  | cons c cs ih =>
    simp only [read, advance_resume]
    cases t.advance c with
    | error e => rfl
    | ok t' => exact ih t'

theorem finish_resume :
    (s.resume t).finish =
      match t.finish with
      | .error e => .error (e.shift s.position)
      | .ok lexemes => .ok (s.found.reverse ++ lexemes.map (Lexeme.shift s.offset)) := by
  rcases t.mode.unquoted_or with hm | ⟨token, quote, hm⟩
  · rw [finish_unquoted hm, finish_unquoted (unquoted_shift hm), ended_resume]
    simp
  · simp [finish, resume, hm, Mode.shift, ScanError.shift]

end Scanner

/-! ## Tokens of joined texts -/

/-- Where the front of a text leaves the scanner between tokens, the rest is scanned by itself. -/
theorem ofText_append_of_gap {front back : String} {s : Scanner}
    (hs : Scanner.initial.read front.toList = .ok s) (hm : s.mode = .gap) :
    Token.ofText (front ++ back) =
      match Token.ofText back with
      | .error e => .error (e.shift front.length)
      | .ok tokens => .ok (s.found.reverse.map Lexeme.text ++ tokens) := by
  have hpos : s.position = front.length := by
    rw [Scanner.position_of_read hs, ← String.length_toList]
    exact Nat.zero_add _
  have hread : Scanner.initial.read (front ++ back).toList =
      (s.resume .initial).read back.toList := by
    rw [String.toList_append, Scanner.read_append_of_ok hs, Scanner.resume_initial s hm]
  simp only [Token.ofText, Lexeme.ofText, hread, Scanner.read_resume, ← hpos]
  cases hb : Scanner.initial.read back.toList with
  | error e => rfl
  | ok t =>
    simp only [Scanner.finish_resume]
    cases t.finish with
    | error e => rfl
    | ok lexemes =>
      simp only [List.map_append, List.map_map]
      rfl

/-- A character that ends every token in front of it. -/
def IsDelimiter (c : Char) : Prop :=
  isBlank c = true ∨ c = '(' ∨ c = ')'

/-- The tokens that a delimiter is: itself, if it is a parenthesis. -/
def delimiterTokens (c : Char) : List Token :=
  if isBlank c then [] else [String.singleton c]

theorem Scanner.advance_delimiter {s : Scanner} (hm : s.mode.Unquoted) {d : Char}
    (hd : IsDelimiter d) :
    ∃ s', s.advance d = .ok s' ∧ s'.mode = .gap ∧
      s'.found.reverse.map Lexeme.text = s.ended.reverse.map Lexeme.text ++ delimiterTokens d := by
  rcases hd with hd | hd
  · exact ⟨_, advance_blank hm hd, rfl, by simp [delimiterTokens, hd]⟩
  · have hb : isBlank d = false := by rcases hd with rfl | rfl <;> decide
    exact ⟨_, advance_paren hm hd, rfl, by simp [delimiterTokens, hb]⟩

/-- A delimiter splits a text into two that are scanned by themselves. -/
theorem ofText_delimiter {front : String} {tokens : List Token}
    (hf : Token.ofText front = .ok tokens) {d : Char} (hd : IsDelimiter d) (back : String) :
    Token.ofText (front ++ String.singleton d ++ back) =
      match Token.ofText back with
      | .error e => .error (e.shift (front.length + 1))
      | .ok tokens' => .ok (tokens ++ delimiterTokens d ++ tokens') := by
  obtain ⟨s, hs, hm, rfl⟩ := Scanner.ofText_eq_ok_iff.mp hf
  obtain ⟨s', hs', hm', ht⟩ := Scanner.advance_delimiter hm hd
  have hread : Scanner.initial.read (front ++ String.singleton d).toList = .ok s' := by
    rw [String.toList_append, Scanner.read_append_of_ok hs, String.toList_singleton,
      Scanner.read_cons hs']
    rfl
  rw [ofText_append_of_gap hread hm', ht]
  simp

/-- So does a gap, which has no tokens. -/
theorem ofText_gap {front gap : String} {tokens : List Token}
    (hf : Token.ofText front = .ok tokens) (hg : IsGap gap.toList) (hne : gap ≠ "")
    (back : String) :
    Token.ofText (front ++ gap ++ back) =
      match Token.ofText back with
      | .error e => .error (e.shift (front ++ gap).length)
      | .ok tokens' => .ok (tokens ++ tokens') := by
  obtain ⟨s, hs, hm, rfl⟩ := Scanner.ofText_eq_ok_iff.mp hf
  obtain ⟨s', hs', -, he, hgap⟩ := Scanner.read_gap hg hm
  have hm' : s'.mode = .gap := hgap (.inr (mt String.toList_eq_nil_iff.mp hne))
  have hread : Scanner.initial.read (front ++ gap).toList = .ok s' := by
    rw [String.toList_append, Scanner.read_append_of_ok hs, hs']
  rw [ofText_append_of_gap hread hm', ← Scanner.ended_gap hm', he, List.map_reverse]

end PrefixCalc
