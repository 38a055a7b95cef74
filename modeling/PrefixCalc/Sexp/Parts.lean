import PrefixCalc.Atom.Literal
import PrefixCalc.Sexp.Basic
import PrefixCalc.Token.Grammar

/-!
# PrefixCalc.Sexp.Parts

The atoms and the lists that an S-expression is made of, wherever they stand, and the places in it
that are reached through arguments only. And the atoms whose text stands for themselves: strings have
no escapes, so one that holds a quote or a newline is not readable, and neither is a name that looks
like something else.
-/

namespace PrefixCalc
namespace Sexp

mutual

/-- The atoms in an S-expression, heads included, from left to right. -/
def leaves : Sexp → List Atom
  | .atom leaf => [leaf]
  | .list items => leavesAll items

def leavesAll : List Sexp → List Atom
  | [] => []
  | x :: rest => leaves x ++ leavesAll rest

end

mutual

/-- The items of every list in an S-expression, heads included, an outer list before its inner
ones. -/
def lists : Sexp → List (List Sexp)
  | .atom _ => []
  | .list items => items :: listsAll items

def listsAll : List Sexp → List (List Sexp)
  | [] => []
  | x :: rest => lists x ++ listsAll rest

end

theorem mem_leavesAll_iff {items : List Sexp} {leaf : Atom} :
    leaf ∈ leavesAll items ↔ ∃ x ∈ items, leaf ∈ x.leaves := by
  induction items with
  | nil => simp [leavesAll]
  | cons x rest ih => simp [leavesAll, ih]

theorem mem_listsAll_iff {items : List Sexp} {l : List Sexp} :
    l ∈ listsAll items ↔ ∃ x ∈ items, l ∈ x.lists := by
  induction items with
  | nil => simp [listsAll]
  | cons x rest ih => simp [listsAll, ih]

end Sexp

/-- An S-expression with a gap in it, which is the whole or stands inside of arguments. -/
inductive Frame where
  | hole
  /-- The gap is in an argument of this list, with other items before and behind that argument. -/
  | argument (head : Sexp) (before : List Sexp) (inner : Frame) (behind : List Sexp)

namespace Frame

def fill : Frame → Sexp → Sexp
  | .hole, x => x
  | .argument head before inner behind, x =>
    .list (head :: (before ++ inner.fill x :: behind))

/-- How many lists stand around the gap. -/
def level : Frame → Nat
  | .hole => 0
  | .argument _ _ inner _ => inner.level + 1

/-- The arguments in front of the gap, for each of the lists around it. -/
def passed : Frame → List (List Sexp)
  | .hole => []
  | .argument _ before inner _ => before :: inner.passed

end Frame

/-! ## Readable atoms -/

/-- The characters of a word, with a string literal at its end or without one. -/
def IsWord (cs : List Char) : Prop :=
  ∃ w, w ≠ [] ∧ (∀ c ∈ w, isPlain c = true) ∧
    (cs = w ∨ ∃ content, (∀ c ∈ content, isContent c = true) ∧ cs = w ++ quotedChars content)

/-- A name that is read as a name: a word that is no integer, no boolean and no operator. -/
def IsName (text : String) : Prop :=
  IsWord text.toList ∧ Token.isInteger text = false ∧ Token.isBoolean text = false ∧
    Operator.ofText? text = none

namespace Atom

/-- An atom that can be read back from its text. -/
def Readable : Atom → Prop
  | .int _ => True
  | .str content => ∀ c ∈ content.toList, isContent c = true
  | .bool _ => True
  | .sym (.operator _) => True
  | .sym (.name text) => IsName text

/-- An atom that the token of its text stands for, where this is no parenthesis. -/
def Restorable (leaf : Atom) : Prop :=
  ofToken leaf.text = .ok leaf ∧ leaf.text ≠ Token.opening ∧ leaf.text ≠ Token.closing

theorem restorable_iff {leaf : Atom} :
    (ofToken leaf.text).toOption = some leaf ∧ leaf.text ≠ Token.opening ∧
      leaf.text ≠ Token.closing ↔ leaf.Restorable := by
  unfold Restorable
  cases ofToken leaf.text with
  | error e => simp [Except.toOption]
  | ok leaf' => simp [Except.toOption]

instance : DecidablePred Restorable := fun _ => decidable_of_iff _ restorable_iff

end Atom

/-- A program of readable atoms only. -/
def Program.Readable (program : Program) : Prop :=
  ∀ leaf ∈ Sexp.leavesAll program, leaf.Readable

end PrefixCalc
