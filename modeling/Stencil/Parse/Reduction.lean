import Stencil.Parse.Error
import Stencil.Token
import Stencil.UndoStack

/-!
# Reducing

A reduction takes the right-hand side of a rule off the stack and puts the phrase made of it on top.
If something else lies there, everything goes back to its place.
-/

namespace Stencil

/-- Pops tokens of the expected kinds, top first. `preceding` is the kind matched last. -/
def popKinds (lhs : Symbol) (preceding : Option Symbol) :
    List Symbol → UndoStack Token → Except ReduceError Unit × UndoStack Token
  | [], stack => (.ok (), stack)
  | expected :: deeper, stack =>
    let (top, stack) := stack.pop
    let got := top.map Token.kind
    if got = some expected then popKinds lhs (some expected) deeper stack
    else (.error { lhs, expected, got, preceding }, stack)

def Rule.reduce (rule : Rule) (stack : UndoStack Token) :
    Except ReduceError Unit × UndoStack Token :=
  match popKinds rule.lhs none rule.stackOrder stack with
  | (.error error, stack) => (.error error, stack.undoAll)
  | (.ok (), stack) =>
    let (children, stack) := stack.takePopped
    (.ok (), stack.push (.ofChildren rule.lhs children))

end Stencil
