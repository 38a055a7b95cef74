import PrefixCalc.Dump
import PrefixCalc.Source

/-!
# PrefixCalc.CommandLine

The command line: options, and words, which joined by spaces are the source. The last option of a
sort counts, wherever it stands. `--max-depth` takes the argument behind it whatever that is.
Behind `--` every argument is a word; before it, one that starts with `--` has to be an option.
-/

namespace PrefixCalc

inductive View where
  | tokens
  | tree
  | value
  deriving DecidableEq, Repr

inductive UsageError where
  | missingLimit
  | badLimit (value : String)
  | unknownOption (option : String)
  | noSource
  deriving DecidableEq, Repr

namespace UsageError

def reason : UsageError → String
  | .missingLimit => "--max-depth needs a value"
  | .badLimit value => "bad --max-depth '" ++ value ++ "'"
  | .unknownOption option => "unknown option '" ++ option ++ "'"
  | .noSource => "no source given"

def usage : String :=
  "usage: lispy [--tokens | --ast] [--max-depth N] <source>..."

/-- The error in words, and how to do better. -/
def message (e : UsageError) : String :=
  e.reason ++ "\n" ++ usage

end UsageError

/-- What one or two arguments of the command line say. -/
inductive Argument where
  | view (view : View)
  | limit (limit : Nat)
  | word (text : String)
  deriving DecidableEq, Repr

namespace Argument

/-- A nesting limit: the digits of a value that fits into 64 bits, behind a `+` or not. -/
def limit? (text : String) : Option Nat :=
  Decimal.bounded? UInt64.size text

def isOption (text : String) : Bool :=
  match text.toList with
  | '-' :: '-' :: _ => true
  | _ => false

/-- What the arguments say, up to the first one that is out of place. -/
def ofStrings : List String → Except UsageError (List Argument)
  | [] => .ok []
  | arg :: rest =>
    if arg = "--tokens" then (ofStrings rest).map (.view .tokens :: ·)
    else if arg = "--ast" then (ofStrings rest).map (.view .tree :: ·)
    else if arg = "--max-depth" then
      match rest with
      | [] => .error .missingLimit
      | value :: rest =>
        match limit? value with
        | none => .error (.badLimit value)
        | some n => (ofStrings rest).map (.limit n :: ·)
    else if arg = "--" then .ok (rest.map .word)
    else if isOption arg then .error (.unknownOption arg)
    else (ofStrings rest).map (.word arg :: ·)

def view? : Argument → Option View
  | .view v => some v
  | _ => none

def nesting? : Argument → Option Nat
  | .limit n => some n
  | _ => none

def word? : Argument → Option String
  | .word text => some text
  | _ => none

end Argument

structure Request where
  view : View
  limit : Nat
  source : String
  deriving DecidableEq, Repr

namespace Request

/-- What the arguments ask for together; there has to be a word among them. -/
def ofArguments (arguments : List Argument) : Except UsageError Request :=
  let words := arguments.filterMap Argument.word?
  if words = [] then .error .noSource
  else .ok {
    view := (arguments.filterMap Argument.view?).getLastD .value
    limit := (arguments.filterMap Argument.nesting?).getLastD Source.defaultLimit
    source := " ".intercalate words }

def ofStrings (args : List String) : Except UsageError Request :=
  match Argument.ofStrings args with
  | .error e => .error e
  | .ok arguments => ofArguments arguments

/-- What a whole command line asks for, the name of the program in front if there is one. -/
def ofCommandLine (line : List String) : Except UsageError Request :=
  ofStrings line.tail

def answer (r : Request) : Except Failure String :=
  match r.view with
  | .tokens => (Source.tokens r.source).map Dump.tokens
  | .tree => (Source.program r.limit r.source).map Dump.program
  | .value => (Source.value r.limit r.source).map Value.readable

end Request

/-- How a run of the program ends: its exit code, and what it wrote to both streams. -/
structure Outcome where
  code : UInt32
  stdout : String
  stderr : String
  deriving DecidableEq, Repr

namespace Outcome

def success (text : String) : Outcome :=
  { code := 0, stdout := text ++ "\n", stderr := "" }

def failure (message : String) : Outcome :=
  { code := 1, stdout := "", stderr := "Error: " ++ message ++ "\n" }

def ofStrings (args : List String) : Outcome :=
  match Request.ofStrings args with
  | .error e => failure e.message
  | .ok request =>
    match request.answer with
    | .error e => failure e.message
    | .ok text => success text

end Outcome
end PrefixCalc
