import Stencil.Table.Basic
import Stencil.Token

/-!
# What the engine reports

While it works, the engine reports what it does. Reports are data: a computation returns the events
that it went through together with its result, and whoever asked for them decides which to show.
-/

namespace Stencil

inductive Level where
  | error
  | warn
  | info
  | debug
  | trace
deriving DecidableEq

namespace Level

def name : Level → String
  | error => "ERROR"
  | warn => "WARN"
  | info => "INFO"
  | debug => "DEBUG"
  | trace => "TRACE"

def rank : Level → Nat
  | error => 0
  | warn => 1
  | info => 2
  | debug => 3
  | trace => 4

def shownAt (level threshold : Level) : Bool :=
  level.rank ≤ threshold.rank

end Level

inductive Halt where
  | noDecision
  | shiftPastEnd
  | reduceFailed
  | leftoverStack

def Halt.describe : Halt → String
  | noDecision => "no decision"
  | shiftPastEnd => "shift past end of input"
  | reduceFailed => "reduce failed"
  | leftoverStack => "leftover stack"

/-- Something that the engine reports. An `unread` event counts the tokens behind an accepted phrase;
a `stacked` one shows an element on the stack of a parse that stopped. -/
inductive Event where
  | tokenRead (token : Token)
  | lexed (count : Nat)
  | scanned (count : Nat)
  | grammarChecked (grammar : Grammar)
  | tabulated (table : Table)
  | decided (stack : List Token) (lookahead : Option Symbol) (action : Action)
  | reduced (rule : Rule)
  | halted (reason : Halt) (stack : List Token)
  | stacked (element : Token)
  | unread (count : Nat)
  | parsed (tree : Token)
  | lowered (count : Nat)
  | valueMissing (name : String)
  | resolved (count : Nat)
  | listed (names : List String)

namespace Event

def level : Event → Level
  | unread _ => .warn
  | listed _ => .info
  | tokenRead _ | decided .. | reduced _ | valueMissing _ => .trace
  | _ => .debug

def lookaheadName : Option Symbol → String
  | some symbol => "Some(" ++ symbol.traceName ++ ")"
  | none => "None"

def message : Event → String
  | tokenRead token =>
    "token " ++ token.kind.traceName ++ " " ++ Text.quoteText (token.text?.getD "") ++ " at " ++
      toString token.span.line ++ ":" ++ toString token.span.column
  | lexed count => "lexed " ++ toString count ++ " tokens"
  | scanned count => "scanned " ++ toString count ++ " token(s)"
  | grammarChecked grammar =>
    "grammar: " ++ toString grammar.rules.length ++ " rules, start symbol " ++ grammar.start.title
  | tabulated table => "decision table:\n" ++ table.dump
  | decided stack lookahead action =>
    "stack depth " ++ toString stack.length ++ ", lookahead " ++ lookaheadName lookahead ++ ": " ++
      action.describe
  | reduced rule => "reduced " ++ rule.describe
  | halted reason stack =>
    reason.describe ++ "; " ++ toString stack.length ++ " element(s) on the stack"
  | stacked element => "\n" ++ outline element
  | unread count => "parse accepted with " ++ toString count ++ " token(s) left unconsumed"
  | parsed tree => "parse tree:\n" ++ outline tree
  | lowered count => "built AST with " ++ toString count ++ " node(s)"
  | valueMissing name => "no value for " ++ name
  | resolved count => "resolved " ++ toString count ++ " placeholder(s)"
  | listed names =>
    toString names.length ++ " placeholder(s): " ++ String.intercalate ", " names

def shownAt (events : List Event) (threshold : Level) : List Event :=
  events.filter (·.level.shownAt threshold)

def ofHalt (reason : Halt) (stack : List Token) : List Event :=
  halted reason stack :: stack.map stacked

end Event

structure Reported (α : Type) where
  value : α
  events : List Event

namespace Reported

variable {α β : Type}

def andThen (first : Reported α) (next : α → Reported β) : Reported β :=
  let second := next first.value
  ⟨second.value, first.events ++ second.events⟩

instance : Monad Reported where
  pure value := ⟨value, []⟩
  bind := andThen

@[simp] theorem value_pure (value : α) : (pure value : Reported α).value = value := rfl

@[simp] theorem value_bind (first : Reported α) (next : α → Reported β) :
    (first >>= next).value = (next first.value).value := rfl

end Reported

def report (event : Event) : Reported Unit :=
  ⟨(), [event]⟩

def reportAll (events : List Event) : Reported Unit :=
  ⟨(), events⟩

/-- A computation that can fail and reports what it does. What was reported before a failure stays
reported. -/
abbrev Attempt (ε α : Type) := ExceptT ε Reported α

/-- A computation that can fail and works on something on the way. What it has done to it before a
failure stays done. -/
abbrev Work (σ ε α : Type) := ExceptT ε (StateT σ Reported) α

namespace Work

variable {σ ε α : Type}

def ofAttempt (attempt : Attempt ε α) : Work σ ε α :=
  ExceptT.mk (liftM attempt.run)

def result (work : Work σ ε α) (state : σ) : Attempt ε α :=
  ExceptT.mk do return (← work.run.run state).1

end Work

end Stencil
