import Stencil.RankedErrors
import Stencil.Table.Basic
import Stencil.Table.Error
import Stencil.Token
import Stencil.UndoStack

/-!
# Choosing an action

What to do with the top of the stack is said by the one item whose rule is really on the stack. The
items of the top symbol are first sifted by the next token of the input, then by the elements of
the stack, one level after the other. An item that reaches the first symbol of its rule is checked
against the element below. Items that fail leave errors behind, ranked by the level they reached.

If a symbol has a single item, that item has no rival, and the elements below the top are left for
the reduction to check.

Elements are popped while they are looked at. In the end they are all put back.
-/

namespace Stencil.Table

structure Candidate where
  item : Item
  /-- The symbols that it still expects: the first at the level looked at, then deeper ones. -/
  expected : List Symbol

structure Findings where
  fitting : List Item
  errors : RankedErrors DecisionError

/-- Sifts the candidates by one level of the stack: `actual` lies at that level and `below` under
it. Candidates that fit and expect more are kept. -/
def sift (actual below : Option Symbol) (depth : Nat) (findings : Findings) :
    List Candidate → List Candidate × Findings
  | [] => ([], findings)
  | candidate :: later =>
    match candidate.expected with
    | [] => sift actual below depth findings later
    | expected :: deeper =>
      if actual ≠ some expected then
        sift actual below depth
          { findings with errors := findings.errors.add (.mismatch expected actual) depth } later
      else if deeper ≠ [] then
        let (kept, findings) := sift actual below depth findings later
        (⟨candidate.item, deeper⟩ :: kept, findings)
      else if candidate.item.mayStartAbove below then
        sift actual below depth
          { findings with fitting := findings.fitting ++ [candidate.item] } later
      else
        sift actual below depth
          { findings with
            errors := findings.errors.add (.unexpectedBelow candidate.item.rule.lhs below)
              (depth + 1) }
          later

/-- Sifts the candidates level by level, popping the elements they are compared with, until none
is left. No candidate expects more than `levels` elements. -/
def search (levels : Nat) (actual : Option Symbol) (depth : Nat) (candidates : List Candidate)
    (stack : UndoStack Token) (findings : Findings) : Findings × UndoStack Token :=
  match levels with
  | 0 => (findings, stack)
  | fewer + 1 =>
    let (kept, findings) := sift actual (stack.peek?.map Token.kind) depth findings candidates
    if kept.isEmpty then (findings, stack)
    else
      let (next, stack) := stack.pop
      search fewer (next.map Token.kind) (depth + 1) kept stack findings

def siftLookahead (lookahead : Option Symbol) (items : List Item) : List Item × Findings :=
  let errors := items.foldl
    (fun errors item =>
      match item.checkLookahead lookahead with
      | .ok () => errors
      | .error error => errors.add error 0)
    RankedErrors.empty
  (items.filter (·.lookaheads.contains lookahead), ⟨[], errors⟩)

def actions (items : List Item) : List Action :=
  (items.map Item.action).foldl
    (fun actions action => if actions.contains action then actions else actions ++ [action]) []

/-- The decision that the findings allow: the one action on which all fitting items agree. -/
def conclude (top : Symbol) (findings : Findings) : Except DecisionError Action :=
  match actions findings.fitting with
  | [action] => .ok action
  | [] => .error (findings.errors.takeBest?.getD (.nothingFits top))
  | _ => .error (.ambiguous top findings.fitting)

/-- The decision of an item without rivals, above an element or at the bottom of the stack. -/
def decideAlone (item : Item) (lookahead below : Option Symbol) : Except DecisionError Action := do
  item.checkLookahead lookahead
  if item.endsAt 0 && !item.mayStartAbove below then
    .error (.unexpectedBelow item.rule.lhs below)
  else .ok item.action

/-- The decision among several items of the symbol on top, which has just been popped. -/
def decideAmong (items : List Item) (top : Symbol) (lookahead : Option Symbol)
    (stack : UndoStack Token) : Except DecisionError Action × UndoStack Token :=
  let (fitting, findings) := siftLookahead lookahead items
  let levels := (fitting.map (·.expected.length)).foldl max 0
  let candidates := fitting.map fun item => ⟨item, item.expected⟩
  let (findings, stack) := search levels (some top) 0 candidates stack findings
  (conclude top findings, stack)

def probe (table : Table) (stack : UndoStack Token) (lookahead : Option Symbol) :
    Except DecisionError Action × UndoStack Token :=
  match stack.pop with
  | (none, stack) => (.error .emptyStack, stack)
  | (some token, stack) =>
    match table.items.get token.kind with
    | [] => (.error (.unusedSymbol token.kind), stack)
    | [item] => (decideAlone item lookahead (stack.peek?.map Token.kind), stack)
    | items => decideAmong items token.kind lookahead stack

/-- Chooses the action for the top of the stack, given the kind of the next token of the input.
The stack is handed back with everything in its place. -/
def decide (table : Table) (stack : UndoStack Token) (lookahead : Option Symbol) :
    Except DecisionError Action × UndoStack Token :=
  let (decision, stack) := table.probe stack lookahead
  (decision, stack.undoAll)

end Stencil.Table
