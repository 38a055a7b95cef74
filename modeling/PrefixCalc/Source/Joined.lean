import PrefixCalc.Source
import PrefixCalc.Token.Grammar

/-!
# PrefixCalc.Source.Joined

Texts that stand one behind the other with blanks between them, as the words of a command line do,
and what they come to if each is run by itself.
-/

namespace PrefixCalc

/-- A text with blanks behind it, one at least. -/
structure Fragment where
  text : String
  gap : String
  isGap : IsGap gap.toList
  gap_ne : gap ≠ ""

namespace Fragment

/-- A text with a space behind it. -/
def spaced (text : String) : Fragment where
  text
  gap := " "
  isGap := by
    have hblank : isBlank ' ' = true := by decide
    simpa [IsGap] using hblank
  gap_ne := by decide

def joined : List Fragment → String
  | [] => ""
  | f :: rest => f.text ++ f.gap ++ joined rest

/-- How many tokens the texts have. -/
def tokenCount : List Fragment → Nat
  | [] => 0
  | f :: rest =>
    match Token.ofText f.text with
    | .error _ => tokenCount rest
    | .ok tokens => tokens.length + tokenCount rest

end Fragment

namespace Source

def fails (limit : Nat) (source : String) : Bool :=
  !(value limit source).isOk

def hasExpression (limit : Nat) (source : String) : Bool :=
  match program limit source with
  | .ok (_ :: _) => true
  | _ => false

/-- The text that decides what texts come to in their order: the first one that fails, or else the
last one that has an expression. -/
def decisive? (limit : Nat) (texts : List String) : Option String :=
  (texts.find? (fails limit)).or (texts.filter (hasExpression limit)).getLast?

/-- What texts come to in their order, each run by itself. -/
def valueInTurn (limit : Nat) (texts : List String) : Except Failure Value :=
  match decisive? limit texts with
  | none => .ok .nil
  | some text => value limit text

end Source
end PrefixCalc
