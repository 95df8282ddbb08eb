import Stencil.Log
import Stencil.Parse.Reduction
import Stencil.Table.Decision

/-!
# Running a parser

A parser keeps a stack of tokens and the rest of its input. In every step it decides whether to move
a token from the input to the stack, to reduce the top of the stack by a rule, or to do so for the
last time. The token on top of the stack tells what comes next in the input; the input itself is
only looked at to take tokens from it.

How a parser decides is left open here. A decision table is one way, and the way that templates use.
-/

namespace Stencil

/-- What happens to tokens behind the accepted phrase: they are reported and left alone, or they are
an error. -/
inductive TrailingPolicy where
  | warn
  | refuse
deriving DecidableEq

structure Parser where
  /-- Chooses the action for the top of a stack, given the kind of the next token of the input. The
  stack is handed back. -/
  decide : UndoStack Token → Option Symbol → Except DecisionError Action × UndoStack Token
  start : Symbol

namespace Parser

structure Configuration where
  stack : UndoStack Token
  input : List Token

inductive Step where
  | next (configuration : Configuration)
  | accepted (configuration : Configuration)
  | failed (error : ParseError)

def stepReduce (rule : Rule) (top : Token) (configuration : Configuration)
    (goOn : Configuration → Step) : Reported Step :=
  match rule.reduce configuration.stack with
  | (.error error, stack) =>
    ⟨.failed (.reduce top.span.line top.span.column error),
      Event.ofHalt .reduceFailed stack.elements⟩
  | (.ok (), stack) => ⟨goOn { configuration with stack }, [.reduced rule]⟩

def stepShift (configuration : Configuration) : Reported Step :=
  match configuration.input with
  | [] => ⟨.failed .pastEnd, Event.ofHalt .shiftPastEnd configuration.stack.elements⟩
  | token :: rest => pure (.next ⟨configuration.stack.push token, rest⟩)

def step (parser : Parser) (configuration : Configuration) : Reported Step :=
  match configuration.stack.peek? with
  | none => pure (.failed .notAccepted)
  | some top =>
    let lookahead := top.lookahead.map (·.symbol)
    match parser.decide configuration.stack lookahead with
    | (.error error, stack) =>
      ⟨.failed (.decision top.span.line top.span.column error),
        Event.ofHalt .noDecision stack.elements⟩
    | (.ok action, stack) => do
      report (.decided stack.elements lookahead action)
      let configuration := { configuration with stack }
      match action with
      | .shift => stepShift configuration
      | .reduce _ rule => stepReduce rule top configuration .next
      | .accept _ rule => stepReduce rule top configuration .accepted

/-- At most `bound` steps of a parser. The events before them are given latest first. -/
def run (parser : Parser) (bound : Nat) (configuration : Configuration) (earlier : List Event) :
    Reported (Except ParseError Configuration) :=
  match bound with
  | 0 => ⟨.error .endless, earlier.reverse⟩
  | fewer + 1 =>
    let ⟨step, events⟩ := parser.step configuration
    let earlier := events.reverse ++ earlier
    match step with
    | .next configuration => run parser fewer configuration earlier
    | .accepted configuration => ⟨.ok configuration, earlier.reverse⟩
    | .failed error => ⟨.error error, earlier.reverse⟩

/-- More steps than any parse takes that ends at all. Each token is shifted once, and a reduction by
a longer rule lowers the stack, so there are fewer than two such steps for a token. Between two of
them only the kind of the top element changes, and a kind that comes back comes back for ever. -/
def stepBound (tokens : List Token) : Nat :=
  2 * Symbol.all.length * tokens.length

def finish (parser : Parser) (trailing : TrailingPolicy) (configuration : Configuration) :
    Attempt ParseError Token := do
  let unread := configuration.input.length
  if unread ≠ 0 then
    match trailing with
    | .warn => report (.unread unread)
    | .refuse => throw (.trailingInput unread)
  match configuration.stack.elements with
  | [] => throw .notAccepted
  | [root] =>
    if root.kind = parser.start then pure root else throw (.wrongRoot parser.start root.kind)
  | _ :: below => ⟨.error (.leftoverStack below.length),
      Event.ofHalt .leftoverStack configuration.stack.elements⟩

def parse (parser : Parser) (trailing : TrailingPolicy) (tokens : List Token) :
    Attempt ParseError Token :=
  match tokens with
  | [] => throw .noTokens
  | first :: rest => do
    let configuration ← ExceptT.mk
      (parser.run (stepBound tokens) ⟨UndoStack.empty.push first, rest⟩ [])
    parser.finish trailing configuration

end Parser

namespace Table

def parser (table : Table) : Parser :=
  ⟨table.decide, table.grammar.start⟩

def parse (table : Table) (trailing : TrailingPolicy) (tokens : List Token) :
    Attempt ParseError Token :=
  table.parser.parse trailing tokens

end Table

end Stencil
