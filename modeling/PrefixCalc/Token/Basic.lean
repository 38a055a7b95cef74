/-!
# PrefixCalc.Token.Basic

Tokens, the pieces that source text is cut into: a parenthesis, or a run of other characters in
which blanks and parentheses stand only between quotes. A lexeme is a token with its place.
-/

namespace PrefixCalc

/-- The text of one token; a string literal keeps its quotes. -/
abbrev Token := String

namespace Token

def opening : Token := "("

def closing : Token := ")"

end Token

/-- A token and the byte offset at which it starts in the source. -/
structure Lexeme where
  start : Nat
  text : Token
  deriving DecidableEq, Repr

namespace Lexeme

/-- The byte offset behind the last character. -/
def stop (l : Lexeme) : Nat :=
  l.start + l.text.utf8ByteSize

def push (l : Lexeme) (c : Char) : Lexeme :=
  { l with text := l.text.push c }

@[simp] theorem start_push (l : Lexeme) (c : Char) : (l.push c).start = l.start := rfl

@[simp] theorem text_push (l : Lexeme) (c : Char) : (l.push c).text = l.text.push c := rfl

end Lexeme

/-- Why text cannot be cut into tokens. -/
inductive ScanError where
  /-- The quote at this character index has no partner on its line. -/
  | unclosedString (position : Nat)
  deriving DecidableEq, Repr

namespace ScanError

def message : ScanError → String
  | .unclosedString position =>
    "tokenizer failed: unclosed string literal starting at character " ++ toString position

end ScanError
end PrefixCalc
