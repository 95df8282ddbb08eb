import Stencil.Grammar.Notation
import Stencil.Log

/-!
# Making decision tables

Grammars and decision tables that report that they have been made.
-/

namespace Stencil

namespace Grammar

def check (rules : List Rule) : Attempt GrammarError Grammar := do
  let grammar ← ExceptT.mk (pure (ofRules rules))
  report (.grammarChecked grammar)
  pure grammar

def checkText (text : String) : Attempt GrammarError Grammar := do
  check (← ExceptT.mk (pure (rulesOfText text)))

end Grammar

def Table.tabulate (grammar : Grammar) : Reported Table := do
  let table := ofGrammar grammar
  report (.tabulated table)
  pure table

end Stencil
