import Stencil.Table.Item

/-!
# Why no action can be chosen

The items of the symbol on top of the stack can all fail to fit, or fit and disagree.
-/

namespace Stencil

inductive DecisionError where
  | emptyStack
  | unusedSymbol (top : Symbol)
  | unexpectedLookahead (symbol : Symbol) (expected : SymbolSet) (got : Option Symbol)
  | mismatch (expected : Symbol) (got : Option Symbol)
  | unexpectedBelow (lhs : Symbol) (got : Option Symbol)
  /-- No item fits, and none failed either. -/
  | nothingFits (top : Symbol)
  | ambiguous (top : Symbol) (fitting : List Item)
deriving DecidableEq

def DecisionError.message : DecisionError → String
  | emptyStack => "nothing to decide on: the stack is empty"
  | unusedSymbol top => "unexpected token (" ++ top.title ++ ")"
  | unexpectedLookahead symbol expected got =>
    "after " ++ symbol.title ++ ": expected " ++ expected.describe "end of input" ++ ", got " ++
      Symbol.titleOr "end of input" got ++ " instead"
  | mismatch expected got =>
    "expected " ++ expected.title ++ ", got " ++ Symbol.titleOr "nothing" got ++ " instead"
  | unexpectedBelow lhs got =>
    lhs.title ++ " cannot start after " ++ Symbol.titleOr "the start of input" got
  | nothingFits top => "no rule applies to " ++ top.title
  | ambiguous top fitting =>
    "ambiguous grammar: " ++ top.title ++ " matches " ++
      String.intercalate " | " (fitting.map Item.describe)

def Item.checkLookahead (item : Item) (lookahead : Option Symbol) : Except DecisionError Unit :=
  if item.lookaheads.contains lookahead then .ok ()
  else .error (.unexpectedLookahead item.focus item.lookaheads lookahead)

end Stencil
