import Stencil.Symbol

/-!
# Grammar rules

A rule says that a phrase may consist of certain symbols, one after the other. The parser meets
them on its stack, where the last one lies on top, so a rule can also be read from its last symbol
back to its first.
-/

namespace Stencil

structure Rule where
  lhs : Symbol
  rhs : List Symbol
  rhs_ne_nil : rhs ≠ [] := by decide
deriving DecidableEq

namespace Rule

def ofSides? (lhs : Symbol) (rhs : List Symbol) : Option Rule :=
  if nonempty : rhs ≠ [] then some ⟨lhs, rhs, nonempty⟩ else none

def head (rule : Rule) : Symbol :=
  rule.rhs.head rule.rhs_ne_nil

/-- The symbols as they lie on the stack from the top down: the last symbol first. -/
def stackOrder (rule : Rule) : List Symbol :=
  rule.rhs.reverse

def atPosition? (rule : Rule) (position : Nat) : Option Symbol :=
  rule.stackOrder[position]?

def positionsOf (rule : Rule) (symbol : Symbol) : List Nat :=
  (rule.stackOrder.zipIdx.filter (·.1 = symbol)).map (·.2)

def length (rule : Rule) : Nat :=
  rule.rhs.length

/-- Whether the rule ends with the end of the input, so that applying it completes a parse. -/
def completesParse (rule : Rule) : Bool :=
  rule.rhs.getLast rule.rhs_ne_nil = .endOfInput

def describe (rule : Rule) : String :=
  rule.rhs.foldl (fun line symbol => line ++ " " ++ symbol.title) (rule.lhs.title ++ " =") ++ " ."

theorem rhs_eq_head_cons (rule : Rule) : rule.rhs = rule.head :: rule.rhs.tail :=
  (List.cons_head_tail rule.rhs_ne_nil).symm

@[simp] theorem length_stackOrder (rule : Rule) : rule.stackOrder.length = rule.length := by
  simp [stackOrder, length]

theorem mem_positionsOf (rule : Rule) (symbol : Symbol) (position : Nat) :
    position ∈ rule.positionsOf symbol ↔ rule.atPosition? position = some symbol := by
  simp [positionsOf, atPosition?, List.mem_zipIdx_iff_getElem?]

end Rule

end Stencil
