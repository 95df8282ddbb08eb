import Stencil.Grammar.Rule
import Stencil.Grammar.SetFamily

/-!
# What may begin a phrase

FIRST of a symbol holds the terminals with which a text of that kind can begin. A terminal begins
with itself; a phrase begins as the first symbols of its rules do. Rules are never empty, so
nothing behind the first symbol matters.
-/

namespace Stencil.FirstSets

def beginnings (first : SetFamily) (symbol : Symbol) : SymbolSet :=
  if symbol.isTerminal then .singleton symbol else first.get symbol

def addRule (first : SetFamily) (rule : Rule) : SetFamily :=
  first.extend rule.lhs (beginnings first rule.head)

def round (rules : List Rule) (first : SetFamily) : SetFamily :=
  rules.foldl addRule first

theorem included_round (rules : List Rule) (first : SetFamily) :
    SetFamily.Included first (round rules first) :=
  SetFamily.included_foldl (fun _ _ => SetFamily.included_extend _ _ _) rules first

def ofRules (rules : List Rule) : SetFamily :=
  SetFamily.saturate (round rules) (included_round rules) (.replicate .empty)

end Stencil.FirstSets
