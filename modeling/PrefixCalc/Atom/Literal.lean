import PrefixCalc.Atom.Basic
import PrefixCalc.Token.Basic

/-!
# PrefixCalc.Atom.Literal

Which atom a token stands for. The kinds of literal are tried in the order integer, string,
boolean, and a token that is none of them is a symbol. What numerals and the other literals look like
is said once more at the end, without reading or writing them.
-/

namespace PrefixCalc

/-- Why a token is not the literal that it is taken for. -/
inductive LiteralError where
  | notBoolean (token : Token)
  deriving DecidableEq, Repr

namespace LiteralError

def message : LiteralError → String
  | .notBoolean token => "lexer failed: '" ++ token ++ "' is not a boolean literal"

end LiteralError

namespace Token

/-- The integer that a token is the numeral of, if it fits into 64 bits. -/
def integer? (token : Token) : Option Int64 :=
  match Decimal.canonical? token with
  | none => none
  | some z =>
    if Int64.minValue.toInt ≤ z ∧ z ≤ Int64.maxValue.toInt then some (Int64.ofInt z) else none

def isInteger (token : Token) : Bool :=
  token.integer?.isSome

/-- Whether the token starts and ends with a quote, and these are two. -/
def isString (token : Token) : Bool :=
  match token.toList with
  | '"' :: rest => rest.getLast? == some '"'
  | _ => false

def content (token : Token) : String :=
  String.ofList (token.toList.drop 1).dropLast

def isBoolean (token : Token) : Bool :=
  token == "true" || token == "false"

def boolean (token : Token) : Except LiteralError Bool :=
  if token = "true" then .ok true
  else if token = "false" then .ok false
  else .error (.notBoolean token)

end Token

namespace Atom

def ofToken (token : Token) : Except LiteralError Atom :=
  match token.integer? with
  | some n => .ok (.int n)
  | none =>
    if token.isString then .ok (.str token.content)
    else if token.isBoolean then
      match token.boolean with
      | .error e => .error e
      | .ok b => .ok (.bool b)
    else .ok (.sym (Symbol.ofText token))

end Atom

/-! ## Tokens and their atoms -/

namespace Token

/-- Exactly the numerals of 64-bit integers are integer literals. -/
theorem integer?_eq_some_iff {token : Token} {n : Int64} :
    token.integer? = some n ↔ token = Decimal.ofInt n.toInt := by
  constructor
  · intro h
    unfold integer? at h
    split at h
    · cases h
    · rename_i z hz
      split at h
      · rename_i hr
        cases h
        have hi : (Int64.ofInt z).toInt = z := by
          apply Int64.toInt_ofInt_of_le
          · exact hr.1
          · exact Int.lt_add_one_of_le hr.2
        rw [hi]
        exact Decimal.canonical?_eq_some_iff.mp hz
      · cases h
  · rintro rfl
    unfold integer?
    rw [Decimal.canonical?_eq_some_iff.mpr rfl]
    simp only [Int64.minValue_le_toInt, Int64.toInt_le, and_self, if_true, Int64.ofInt_toInt]

theorem isString_iff {token : Token} :
    token.isString = true ↔ token = "\"" ++ token.content ++ "\"" := by
  rw [← String.toList_inj, String.toList_append, String.toList_append]
  simp only [content, String.toList_ofList]
  unfold isString
  split
  · rename_i rest heq
    rw [beq_iff_eq, heq, List.drop_succ_cons, List.drop_zero]
    show rest.getLast? = some '"' ↔ '"' :: rest = ['"'] ++ rest.dropLast ++ ['"']
    rw [List.singleton_append, List.cons_append, List.cons.injEq]
    constructor
    · intro h
      obtain ⟨front, rfl⟩ := List.getLast?_eq_some_iff.mp h
      rw [List.dropLast_concat]
      exact ⟨rfl, rfl⟩
    · intro h
      rw [h.2, List.getLast?_append]
      rfl
  · rename_i hne
    constructor
    · intro h
      cases h
    · intro h
      exact absurd h (hne _)

theorem isBoolean_iff {token : Token} :
    token.isBoolean = true ↔ ∃ b, token = boolText b := by
  simp only [isBoolean, Bool.or_eq_true, beq_iff_eq, Bool.exists_bool, boolText]
  exact Or.comm

end Token

namespace Atom

/-- Every token stands for an atom, and that atom is written as the token. -/
theorem exists_ofToken (token : Token) : ∃ leaf, ofToken token = .ok leaf ∧ leaf.text = token := by
  unfold ofToken
  split
  · rename_i n h
    exact ⟨_, rfl, (Token.integer?_eq_some_iff.mp h).symm⟩
  · split
    · rename_i h
      exact ⟨_, rfl, (Token.isString_iff.mp h).symm⟩
    · split
      · rename_i h
        obtain ⟨b, rfl⟩ := Token.isBoolean_iff.mp h
        cases b
        · exact ⟨.bool false, rfl, rfl⟩
        · exact ⟨.bool true, rfl, rfl⟩
      · exact ⟨_, rfl, Symbol.text_ofText token⟩

theorem text_of_ofToken {token : Token} {leaf : Atom} (h : ofToken token = .ok leaf) :
    leaf.text = token := by
  obtain ⟨leaf', h', ht⟩ := exists_ofToken token
  rw [h] at h'
  cases h'
  exact ht

end Atom

/-! ## Literals by their form -/

/-- The numerals of integers, and what each of them denotes. There are no leading zeros, no `+` and
no `-0`. -/
inductive Numeral : List Char → Int → Prop where
  | zero : Numeral ['0'] 0
  | positive {d : Char} {digits : List Char} : d ≠ '0' → (∀ c ∈ d :: digits, c.isDigit = true) →
      Numeral (d :: digits) (Nat.ofDigitChars 10 (d :: digits) 0)
  | negative {d : Char} {digits : List Char} : d ≠ '0' → (∀ c ∈ d :: digits, c.isDigit = true) →
      Numeral ('-' :: d :: digits) (-Nat.ofDigitChars 10 (d :: digits) 0)

/-- An integer of 64 bits. -/
def FitsInt64 (z : Int) : Prop :=
  -9223372036854775808 ≤ z ∧ z ≤ 9223372036854775807

/-- A text that looks like something else than a name: like an integer, a string, a boolean or an
operator. -/
def Lookalike (text : String) : Prop :=
  (∃ z, Numeral text.toList z ∧ FitsInt64 z) ∨
    (2 ≤ text.length ∧ text.toList.head? = some '"' ∧ text.toList.getLast? = some '"') ∨
    text = "true" ∨ text = "false" ∨ ∃ op : Operator, text = op.text

end PrefixCalc
