import Stencil.Symbol
import Stencil.Text.Quoted

/-!
# Faults of a grammar

A list of rules can fail to be a grammar, and a line of grammar text can fail to be a rule.
-/

namespace Stencil

inductive RuleTextError where
  | missingTerminator
  | missingEquals
  | emptyLhs
  | multipleLhs (count : Nat)
  | emptyRhs
  | unknownSymbol (name : String)
  | terminalLhs (name : String)
deriving DecidableEq

inductive GrammarError where
  | noRules
  | badLine (line : Nat) (cause : RuleTextError)
  | noCompletingRule
  | undefinedPhrase (symbol : Symbol)
  | unitCycle (symbol : Symbol)
deriving DecidableEq

def RuleTextError.message : RuleTextError → String
  | missingTerminator => "missing terminating '.'"
  | missingEquals => "missing '='"
  | emptyLhs => "empty left hand side"
  | multipleLhs count => "expected one left hand side, got " ++ toString count
  | emptyRhs => "empty right hand side"
  | unknownSymbol name => "unknown symbol " ++ Text.quoteText name
  | terminalLhs name => "terminal " ++ Text.quoteText name ++ " cannot be a left hand side"

def GrammarError.message : GrammarError → String
  | noRules => "Grammar error: no rules"
  | badLine line cause => "Grammar error at line " ++ toString line ++ ": " ++ cause.message
  | noCompletingRule => "Grammar error: no rule ends with the accept symbol"
  | undefinedPhrase symbol => "Grammar error: " ++ symbol.title ++ " is used but has no rule"
  | unitCycle symbol => "Grammar error: unit rules through " ++ symbol.title ++ " form a cycle"

end Stencil
