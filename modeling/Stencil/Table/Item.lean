import Stencil.Grammar.Basic

/-!
# Items

An item is one place of one rule: the symbol at that place may be the one on top of the stack. It
says what to do then, what has to come next in the input, and what has to lie below the symbol and
below the whole phrase.
-/

namespace Stencil

inductive Action where
  | shift
  | reduce (index : Nat) (rule : Rule)
  | accept (index : Nat) (rule : Rule)
deriving DecidableEq

def Action.describe : Action → String
  | shift => "shift"
  | reduce index _ => "reduce by rule " ++ toString index
  | accept index _ => "accept by rule " ++ toString index

structure Item where
  index : Nat
  rule : Rule
  /-- The place, counted from the last symbol of the rule, which lies on top of the stack when the
  rule is complete. -/
  position : Nat
  focus : Symbol
  /-- The symbols in front of it in the rule, which lie below it on the stack: the nearest first. -/
  below : List Symbol
  action : Action
  lookaheads : SymbolSet
  /-- What may lie below the phrase on the stack. -/
  preceding : SymbolSet
deriving DecidableEq

namespace Item

/-- The item for a place of a rule, if the rule has such a place. Behind the last symbol comes what
follows the phrase, and the phrase is complete. Behind any other symbol comes the beginning of the
next one. -/
def ofRule? (surroundings : Grammar.Surroundings) (index : Nat) (rule : Rule) (position : Nat) :
    Option Item :=
  match rule.stackOrder.drop position with
  | [] => none
  | focus :: below =>
    let (action, lookaheads) := match position with
      | 0 =>
        (if focus = .endOfInput then .accept index rule else .reduce index rule,
          surroundings.follow.get rule.lhs)
      | later + 1 =>
        (.shift, (rule.atPosition? later).elim .empty surroundings.first.get)
    some { index, rule, position, focus, below, action, lookaheads,
           preceding := surroundings.precede.get rule.lhs }

def expected (item : Item) : List Symbol :=
  item.focus :: item.below

def atDepth? (item : Item) (depth : Nat) : Option Symbol :=
  item.expected[depth]?

def endsAt (item : Item) (depth : Nat) : Bool :=
  item.below.length ≤ depth

def mayStartAbove (item : Item) (below : Option Symbol) : Bool :=
  item.preceding.contains below

def describe (item : Item) : String :=
  let place := item.rule.length - 1 - item.position
  let line := item.rule.rhs.zipIdx.foldl
    (fun line (symbol, index) =>
      if index = place then line ++ " [" ++ symbol.title ++ "]" else line ++ " " ++ symbol.title)
    (item.rule.lhs.title ++ " =")
  line ++ " . (" ++ item.action.describe ++ ")"

end Item

end Stencil
