import PrefixCalc.Text.Characters
import PrefixCalc.Token.Basic

/-!
# PrefixCalc.Token.Grammar

The lexical grammar, said without the scanner: what a token looks like, which tokens nothing can be
added to, what stands between tokens, and where the quotes of a text are broken.
-/

namespace PrefixCalc

/-- A character that stands in a token outside quotes, together with others. -/
def isPlain (c : Char) : Bool :=
  !isBlank c && c != '(' && c != ')' && c != '"'

/-- A character that stands between the quotes of a token. -/
def isContent (c : Char) : Bool :=
  c != '"' && c != '\n'

/-- A string literal: content between two quotes. -/
def quotedChars (content : List Char) : List Char :=
  '"' :: (content ++ ['"'])

/-- The characters of one token. -/
inductive IsToken : List Char → Prop where
  | opening : IsToken ['(']
  | closing : IsToken [')']
  | word {w : List Char} : w ≠ [] → (∀ c ∈ w, isPlain c = true) → IsToken w
  | literal {w content : List Char} : (∀ c ∈ w, isPlain c = true) →
      (∀ c ∈ content, isContent c = true) → IsToken (w ++ quotedChars content)

def IsParen (t : List Char) : Prop :=
  t = ['('] ∨ t = [')']

/-- A token that nothing can be added to: a parenthesis, or one that ends in a quote. -/
def IsClosed (t : List Char) : Prop :=
  IsParen t ∨ t.getLast? = some '"'

def IsGap (g : List Char) : Prop :=
  ∀ c ∈ g, isBlank c = true

theorem isPlain_iff {c : Char} :
    isPlain c = true ↔ isBlank c = false ∧ c ≠ '(' ∧ c ≠ ')' ∧ c ≠ '"' := by
  simp only [isPlain, Bool.and_eq_true, Bool.not_eq_true', bne_iff_ne, and_assoc]

theorem isContent_iff {c : Char} : isContent c = true ↔ c ≠ '"' ∧ c ≠ '\n' := by
  simp only [isContent, Bool.and_eq_true, bne_iff_ne]

theorem isParen_singleton {c : Char} (hc : c = '(' ∨ c = ')') :
    IsParen (String.singleton c).toList := by
  rcases hc with rfl | rfl
  · exact .inl rfl
  · exact .inr rfl

theorem IsParen.isToken {t : List Char} (h : IsParen t) : IsToken t := by
  rcases h with rfl | rfl
  · exact .opening
  · exact .closing

theorem IsToken.ne_nil {t : List Char} (h : IsToken t) : t ≠ [] := by
  cases h with
  | opening => simp
  | closing => simp
  | word hne _ => exact hne
  | literal _ _ => simp [quotedChars]

theorem IsToken.isBlank_head {c : Char} {t : List Char} (h : IsToken (c :: t)) :
    isBlank c = false := by
  generalize hs : c :: t = s at h
  cases h with
  | opening => cases hs; exact isBlank_open
  | closing => cases hs; exact isBlank_close
  | word _ hw =>
    subst hs
    exact (isPlain_iff.mp (hw c (List.mem_cons_self ..))).1
  | @literal w content hw hc =>
    cases w with
    | nil => cases hs; exact isBlank_quote
    | cons d w =>
      cases hs
      exact (isPlain_iff.mp (hw c (List.mem_cons_self ..))).1

/-! ## Quotes -/

namespace Quotes

def positions (cs : List Char) : List Nat :=
  (cs.zipIdx.filter fun place => place.1 = '"').map (·.2)

/-- Neighbours in pairs; the last one may have no partner. -/
def pairs : List Nat → List (Nat × Option Nat)
  | [] => []
  | [q] => [(q, none)]
  | q :: q' :: rest => (q, some q') :: pairs rest

/-- Whether a pair is broken: there is no second quote, or a newline stands between the two. -/
def isBroken (cs : List Char) : Nat × Option Nat → Bool
  | (_, none) => true
  | (q, some q') => ((cs.take q').drop q).contains '\n'

/-- The first quote of the first broken pair. -/
def firstBroken? (cs : List Char) : Option Nat :=
  ((pairs (positions cs)).find? (isBroken cs)).map (·.1)

end Quotes
end PrefixCalc
