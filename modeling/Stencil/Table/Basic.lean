import Stencil.Table.Item

/-!
# Decision tables

A decision table lists for every symbol the places of the rules at which the symbol occurs, by the
number of the rule and then from the last symbol of the rule to the first.
-/

namespace Stencil

structure Table where
  grammar : Grammar
  items : PerSymbol (List Item)

namespace Table

def itemsOf (surroundings : Grammar.Surroundings) (rules : List (Rule × Nat)) (symbol : Symbol) :
    List Item :=
  rules.flatMap fun (rule, index) =>
    (rule.positionsOf symbol).filterMap (Item.ofRule? surroundings index rule)

def ofGrammar (grammar : Grammar) : Table :=
  let surroundings := grammar.surroundings
  ⟨grammar, .ofFn (itemsOf surroundings grammar.rules.zipIdx)⟩

def rule? (table : Table) (index : Nat) : Option Rule :=
  table.grammar.rules[index]?

def dump (table : Table) : String :=
  String.join <| table.grammar.symbols.map fun symbol =>
    symbol.title ++ ":\n" ++
      String.join ((table.items.get symbol).map fun item => "    " ++ item.describe ++ "\n")

end Table

end Stencil
