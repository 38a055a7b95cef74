import PrefixCalc.Atom.Basic
import PrefixCalc.Atom.Literal
import PrefixCalc.CommandLine
import PrefixCalc.CommandLine.Grammar
import PrefixCalc.Dump
import PrefixCalc.Eval
import PrefixCalc.Eval.Visits
import PrefixCalc.Eval.WellFormed
import PrefixCalc.Main
import PrefixCalc.Operation.Basic
import PrefixCalc.Operation.Exact
import PrefixCalc.Sexp.Basic
import PrefixCalc.Sexp.Nesting
import PrefixCalc.Sexp.Parts
import PrefixCalc.Sexp.Reading
import PrefixCalc.Sexp.Text
import PrefixCalc.Source
import PrefixCalc.Source.Joined
import PrefixCalc.Text.Characters
import PrefixCalc.Text.Decimal
import PrefixCalc.Text.Quoted
import PrefixCalc.Token.Basic
import PrefixCalc.Token.Cutter
import PrefixCalc.Token.Grammar
import PrefixCalc.Token.Scanner
import PrefixCalc.Proofs.Atom.Lookalike
import PrefixCalc.Proofs.Atom.Numeral
import PrefixCalc.Proofs.Atom.Readable
import PrefixCalc.Proofs.CommandLine.Offences
import PrefixCalc.Proofs.CommandLine.Phrases
import PrefixCalc.Proofs.Dump
import PrefixCalc.Proofs.Eval.Defects
import PrefixCalc.Proofs.Eval.Exact
import PrefixCalc.Proofs.Eval.Frames
import PrefixCalc.Proofs.Eval.Heads
import PrefixCalc.Proofs.Eval.Limit
import PrefixCalc.Proofs.Eval.Regrouping
import PrefixCalc.Proofs.Eval.Steps
import PrefixCalc.Proofs.Eval.Values
import PrefixCalc.Proofs.Eval.Visits
import PrefixCalc.Proofs.Eval.WellFormed
import PrefixCalc.Proofs.Limit
import PrefixCalc.Proofs.Operation.Calls
import PrefixCalc.Proofs.Operation.Exact
import PrefixCalc.Proofs.Operation.Failures
import PrefixCalc.Proofs.Operation.Results
import PrefixCalc.Proofs.Sexp.Indices
import PrefixCalc.Proofs.Sexp.Joining
import PrefixCalc.Proofs.Sexp.Limit
import PrefixCalc.Proofs.Sexp.Nesting
import PrefixCalc.Proofs.Sexp.RoundTrip
import PrefixCalc.Proofs.Sexp.Tokens
import PrefixCalc.Proofs.Source.Failures
import PrefixCalc.Proofs.Source.Joining
import PrefixCalc.Proofs.Source.Readable
import PrefixCalc.Proofs.Source.Stages
import PrefixCalc.Proofs.Text.Quoted
import PrefixCalc.Proofs.Token.Cutter
import PrefixCalc.Proofs.Token.Delimiters
import PrefixCalc.Proofs.Token.Invariant
import PrefixCalc.Proofs.Token.Joining
import PrefixCalc.Proofs.Token.Layout
import PrefixCalc.Proofs.Token.Literals
import PrefixCalc.Proofs.Token.Quotes
import PrefixCalc.Proofs.Token.Split
import PrefixCalc.Proofs.Token.Steps
