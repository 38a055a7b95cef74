import PrefixCalc.CommandLine

/-!
# PrefixCalc.CommandLine.Grammar

The grammar of the command line, said without reading it: options and words in any order, and
perhaps `--` with words behind it. Where a line does not follow it, some argument is the first one
out of place.
-/

namespace PrefixCalc

/-- A text of digits with this value, which fits into 64 bits, behind a `+` or not. -/
def IsLimit (text : String) (n : Nat) : Prop :=
  ∃ digits : List Char, (text.toList = digits ∨ text.toList = '+' :: digits) ∧ digits ≠ [] ∧
    (∀ c ∈ digits, c.isDigit = true) ∧ n = Nat.ofDigitChars 10 digits 0 ∧ n < UInt64.size

namespace Argument

theorem limit?_eq_some_iff {text : String} {n : Nat} :
    limit? text = some n ↔ IsLimit text n := by
  have hd : ∀ digits : List Char, (Decimal.natural? digits).filter (· < UInt64.size) = some n ↔
      digits ≠ [] ∧ (∀ c ∈ digits, c.isDigit = true) ∧ n = Nat.ofDigitChars 10 digits 0 ∧
        n < UInt64.size := by
    intro digits
    rw [Option.filter_eq_some_iff, Decimal.natural?_eq_some_iff, decide_eq_true_eq]
    simp only [and_assoc]
  unfold limit? Decimal.bounded? IsLimit
  split
  · rename_i rest heq
    rw [hd]
    constructor
    · intro h
      exact ⟨rest, .inr heq, h⟩
    · rintro ⟨digits, hs, h⟩
      rcases hs with hs | hs
      · have hp : '+' ∈ digits := by
          rw [← hs, heq]
          exact List.mem_cons_self ..
        exact absurd (h.2.1 _ hp) (by decide)
      · rw [heq] at hs
        cases hs
        exact h
  · rename_i hne
    rw [hd]
    constructor
    · intro h
      exact ⟨text.toList, .inl rfl, h⟩
    · rintro ⟨digits, hs, h⟩
      rcases hs with hs | hs
      · rw [hs]
        exact h
      · exact absurd hs (hne _)

theorem limit?_eq_none_iff {text : String} : limit? text = none ↔ ∀ n, ¬ IsLimit text n := by
  simp only [Option.eq_none_iff_forall_ne_some, ne_eq, limit?_eq_some_iff]

theorem isOption_eq_true_iff {text : String} :
    isOption text = true ↔ ∃ rest, text = "--" ++ rest := by
  constructor
  · intro h
    unfold isOption at h
    split at h
    · rename_i rest heq
      refine ⟨String.ofList rest, String.toList_inj.mp ?_⟩
      rw [heq, String.toList_append, show "--".toList = ['-', '-'] from rfl, String.toList_ofList]
      rfl
    · cases h
  · rintro ⟨rest, rfl⟩
    simp [isOption]

end Argument

/-- An option, with its value if it takes one, or a word. -/
inductive Phrase where
  | tokens
  | tree
  | limit (value : String) (n : Nat) (isLimit : IsLimit value n)
  | word (text : String) (noOption : ∀ rest, text ≠ "--" ++ rest)

namespace Phrase

/-- The arguments that the phrase consists of. -/
def strings : Phrase → List String
  | .tokens => ["--tokens"]
  | .tree => ["--ast"]
  | .limit value _ _ => ["--max-depth", value]
  | .word text _ => [text]

/-- What the phrase asks to see, if it asks for that. -/
def view? : Phrase → Option View
  | .tokens => some .tokens
  | .tree => some .tree
  | .limit _ _ _ => none
  | .word _ _ => none

def limit? : Phrase → Option Nat
  | .limit _ n _ => some n
  | _ => none

def word? : Phrase → Option String
  | .word text _ => some text
  | _ => none

def isWord : Phrase → Bool
  | .word _ _ => true
  | _ => false

end Phrase

/-- A command line in its grammar: phrases in any order and then, behind `--` if that is there, any
strings. -/
structure Phrasing where
  phrases : List Phrase
  behind : Option (List String)

namespace Phrasing

def strings (p : Phrasing) : List String :=
  p.phrases.flatMap Phrase.strings ++
    match p.behind with
    | none => []
    | some texts => "--" :: texts

/-- The words in front of `--` and the strings behind it. -/
def words (p : Phrasing) : List String :=
  p.phrases.filterMap Phrase.word? ++ p.behind.getD []

/-- What the line asks for: the last option of each sort counts, and all words together are the
source. Without an option, this is the value under the limit 256. -/
def request (p : Phrasing) : Request where
  view := (p.phrases.filterMap Phrase.view?).getLastD .value
  limit := (p.phrases.filterMap Phrase.limit?).getLastD 256
  source := " ".intercalate p.words

/-- All options in front of all words, in the order that they had. -/
def optionsFirst (p : Phrasing) : Phrasing where
  phrases := p.phrases.filter (!·.isWord) ++ p.phrases.filter (·.isWord)
  behind := p.behind

end Phrasing

/-- The argument in front is out of place, for this reason. -/
inductive Offence : List String → String → Prop where
  | missingLimit : Offence ["--max-depth"] "--max-depth needs a value"
  | badLimit {value : String} {rest : List String} :
      (∀ n, ¬ IsLimit value n) →
        Offence ("--max-depth" :: value :: rest) ("bad --max-depth '" ++ value ++ "'")
  | unknownOption {option : String} {rest : List String} :
      (∃ name, option = "--" ++ name) → option ∉ ["--tokens", "--ast", "--max-depth", "--"] →
        Offence (option :: rest) ("unknown option '" ++ option ++ "'")

/-- The first argument out of place, with nothing but phrases in front of it. -/
def FirstOffence (args : List String) (reason : String) : Prop :=
  ∃ (phrases : List Phrase) (rest : List String),
    args = phrases.flatMap Phrase.strings ++ rest ∧ Offence rest reason

end PrefixCalc
