import PrefixCalc.Text.Characters
import PrefixCalc.Token.Basic

/-!
# PrefixCalc.Token.Scanner

The scanner, which takes a text one character at a time. A parenthesis is always a token of its
own, and a blank ends the token before it. A quote does not: a string literal belongs to the token
that it stands in, and its closing quote ends that token. Between quotes every character stands
for itself, but a literal does not go on past the end of its line.
-/

namespace PrefixCalc

/-- What the scanner stands in. -/
inductive Mode where
  /-- Between tokens. -/
  | gap
  /-- In a token that has no quote yet. -/
  | word (token : Lexeme)
  /-- Between the quotes of a token; the opening one has the character index `quote`. -/
  | quoted (token : Lexeme) (quote : Nat)
  deriving DecidableEq, Repr

/-- The scanner after some of a text: the characters and bytes read, the lexemes that are
complete, the latest first, and what it stands in. -/
structure Scanner where
  position : Nat
  offset : Nat
  found : List Lexeme
  mode : Mode
  deriving DecidableEq, Repr

namespace Scanner

def initial : Scanner :=
  { position := 0, offset := 0, found := [], mode := .gap }

/-- The lexemes that are complete if the token that is being read ends here. -/
def ended (s : Scanner) : List Lexeme :=
  match s.mode with
  | .word token => token :: s.found
  | _ => s.found

/-- The token that is being read, with a character that belongs to it. -/
def extended (s : Scanner) (c : Char) : Lexeme :=
  match s.mode with
  | .gap => ⟨s.offset, String.singleton c⟩
  | .word token => token.push c
  | .quoted token _ => token.push c

/-- The scanner behind one more character, which left these lexemes complete and this mode. -/
def behind (s : Scanner) (c : Char) (found : List Lexeme) (mode : Mode) : Scanner :=
  { position := s.position + 1, offset := s.offset + c.utf8Size, found, mode }

def advance (s : Scanner) (c : Char) : Except ScanError Scanner :=
  match s.mode with
  | .quoted _ quote =>
    if c = '"' then .ok (s.behind c (s.extended c :: s.found) .gap)
    else if c = '\n' then .error (.unclosedString quote)
    else .ok (s.behind c s.found (.quoted (s.extended c) quote))
  | _ =>
    if isBlank c then .ok (s.behind c s.ended .gap)
    else if c = '(' ∨ c = ')' then
      .ok (s.behind c (⟨s.offset, String.singleton c⟩ :: s.ended) .gap)
    else if c = '"' then .ok (s.behind c s.found (.quoted (s.extended c) s.position))
    else .ok (s.behind c s.found (.word (s.extended c)))

def read (s : Scanner) : List Char → Except ScanError Scanner
  | [] => .ok s
  | c :: rest =>
    match s.advance c with
    | .error e => .error e
    | .ok s' => s'.read rest

/-- The lexemes of a text that ends here. -/
def finish (s : Scanner) : Except ScanError (List Lexeme) :=
  match s.mode with
  | .quoted _ quote => .error (.unclosedString quote)
  | _ => .ok s.ended.reverse

theorem read_append (s : Scanner) (front back : List Char) :
    s.read (front ++ back) =
      match s.read front with
      | .error e => .error e
      | .ok s' => s'.read back := by
  induction front generalizing s with
  | nil => rfl
  | cons c front ih =>
    simp only [List.cons_append, read]
    cases s.advance c with
    | error e => rfl
    | ok s' => exact ih s'

/-- A character moves the scanner on by itself, whatever it means. -/
theorem place_of_advance {s s' : Scanner} {c : Char} (h : s.advance c = .ok s') :
    s'.position = s.position + 1 ∧ s'.offset = s.offset + c.utf8Size := by
  unfold advance at h
  split at h
  · split at h
    · cases h
      exact ⟨rfl, rfl⟩
    · split at h
      · cases h
      · cases h
        exact ⟨rfl, rfl⟩
  · repeat' split at h
    all_goals
      cases h
      exact ⟨rfl, rfl⟩

/-- The position counts the characters that were read. -/
theorem position_of_read {s s' : Scanner} {cs : List Char} (h : s.read cs = .ok s') :
    s'.position = s.position + cs.length := by
  induction cs generalizing s with
  | nil =>
    cases h
    rfl
  | cons c rest ih =>
    simp only [read] at h
    split at h
    · cases h
    · rename_i s₁ h₁
      rw [ih h, (place_of_advance h₁).1, List.length_cons]
      omega

end Scanner

def Lexeme.ofText (text : String) : Except ScanError (List Lexeme) :=
  match Scanner.initial.read text.toList with
  | .error e => .error e
  | .ok s => s.finish

def Token.ofText (text : String) : Except ScanError (List Token) :=
  match Lexeme.ofText text with
  | .error e => .error e
  | .ok lexemes => .ok (lexemes.map (·.text))

end PrefixCalc
