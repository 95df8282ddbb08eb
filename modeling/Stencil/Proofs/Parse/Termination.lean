import Stencil.Proofs.Grammar.Checks
import Stencil.Proofs.Grammar.UnitChains
import Stencil.Proofs.Table.Driving
import Stencil.Template.Grammar

/-! # Parses end

A shift takes a token of the input and a reduction by a longer rule lowers the stack. Unit rules do
neither, but they lead from lower phrases to higher ones. So every parse comes to an end by itself,
before the bound on its steps is reached.
-/

namespace Stencil

namespace Parser

/-! ## Runs without a bound -/

/-- What a parser comes to in so many steps from a configuration, the last of them included. -/
inductive Comes (parser : Parser) : Nat → Configuration → Except ParseError Configuration → Prop
  | accepted {configuration final : Configuration}
      (accepts : (parser.step configuration).value = .accepted final) :
      Comes parser 1 configuration (.ok final)
  | failed {configuration : Configuration} {error : ParseError}
      (fails : (parser.step configuration).value = .failed error) :
      Comes parser 1 configuration (.error error)
  | next {steps : Nat} {configuration later : Configuration}
      {outcome : Except ParseError Configuration}
      (moves : (parser.step configuration).value = .next later)
      (comes : Comes parser steps later outcome) : Comes parser (steps + 1) configuration outcome

variable {parser : Parser} {configuration : Configuration}

theorem exists_comes {bound : Nat} {earlier : List Event}
    (finite : (parser.run bound configuration earlier).value ≠ .error .endless) :
    ∃ steps ≤ bound, Comes parser steps configuration
      (parser.run bound configuration earlier).value := by
  induction bound generalizing configuration earlier with
  | zero => exact absurd rfl finite
  | succ fewer induction =>
      rw [value_run] at finite ⊢
      cases step : (parser.step configuration).value with
      | accepted final => exact ⟨1, by omega, .accepted step⟩
      | failed error => exact ⟨1, by omega, .failed step⟩
      | next later =>
          rw [step] at finite
          rcases induction finite with ⟨steps, few, comes⟩
          exact ⟨steps + 1, by omega, .next step comes⟩

theorem Comes.value_run_eq {steps : Nat} {outcome : Except ParseError Configuration}
    (comes : Comes parser steps configuration outcome) {bound : Nat} (enough : steps ≤ bound)
    (earlier : List Event) : (parser.run bound configuration earlier).value = outcome := by
  induction comes generalizing bound earlier with
  | accepted accepts =>
      rcases Nat.exists_eq_succ_of_ne_zero (Nat.ne_of_gt enough) with ⟨fewer, rfl⟩
      rw [value_run, accepts]
  | failed fails =>
      rcases Nat.exists_eq_succ_of_ne_zero (Nat.ne_of_gt enough) with ⟨fewer, rfl⟩
      rw [value_run, fails]
  | next moves _ induction =>
      obtain ⟨fewer, rfl⟩ := Nat.exists_eq_succ_of_ne_zero (n := bound) (by omega)
      rw [value_run, moves]
      exact induction (by omega) _

end Parser

namespace Table

open Stencil.Parser

variable {grammar : Grammar}

/-! ## What every step lowers -/

def topHeight (rules : List Rule) (state : State) : Nat :=
  (state.stack.head?.map fun top => UnitRules.height rules top.kind).getD 0

/-- More than the number of steps that can follow. A token in the input counts twice as much as an
element of the stack, since it still has to become one. -/
def effort (rules : List Rule) (state : State) : Nat :=
  Symbol.all.length * (2 * state.input.length + state.stack.length) +
    (Symbol.all.length - 1 - topHeight rules state)

theorem topHeight_lt (rules : List Rule) (state : State) :
    topHeight rules state < Symbol.all.length := by
  match state with
  | ⟨[], input⟩ => exact Nat.zero_lt_succ 12
  | ⟨top :: below, input⟩ => exact UnitRules.height_lt rules top.kind

theorem effort_lt_of_size_lt (rules : List Rule) {state next : State}
    (fewer : 2 * next.input.length + next.stack.length <
      2 * state.input.length + state.stack.length) : effort rules next < effort rules state := by
  have size : Symbol.all.length = 13 := rfl
  unfold effort
  rw [size]
  omega

theorem effort_lt_of_reduces (phrases : grammar.BuildsPhrases) {index : Nat} {rule : Rule}
    (member : rule ∈ grammar.rules) {state next : State}
    (reduces : state.Reduces index rule next) :
    effort grammar.rules next < effort grammar.rules state := by
  cases reduces with
  | @apply parts kinds below input =>
      match parts, kinds with
      | [], kinds => exact absurd kinds.symm rule.rhs_ne_nil
      | [part], kinds =>
          have higher : UnitRules.height grammar.rules part.kind <
              UnitRules.height grammar.rules rule.lhs :=
            UnitRules.height_lt_height grammar.acyclic member (phrases rule member) kinds.symm
          have bounded := UnitRules.height_lt grammar.rules rule.lhs
          simp only [effort, topHeight, List.reverse_singleton, List.singleton_append,
            List.length_cons, List.head?_cons, Option.map_some, Option.getD_some,
            Derivation.kind_built]
          omega
      | first :: second :: more, kinds =>
          apply effort_lt_of_size_lt
          simp only [List.length_append, List.length_reverse, List.length_cons]
          omega

theorem effort_lt (phrases : grammar.BuildsPhrases) {state next : State}
    (moves : Moves (ofGrammar grammar).parser state next) :
    effort grammar.rules next < effort grammar.rules state := by
  cases moves with
  | shift =>
      apply effort_lt_of_size_lt
      simp only [List.length_cons]
      omega
  | reduce decided reduces =>
      have member := List.mem_of_getElem? (getElem?_of_reduce decided)
      exact effort_lt_of_reduces phrases member reduces

theorem effort_initial_lt (rules : List Rule) (first : Token) (rest : List Token) :
    effort rules (State.initial first rest) < stepBound (first :: rest) := by
  have bounded := topHeight_lt rules (State.initial first rest)
  have size : Symbol.all.length = 13 := rfl
  simp only [effort, stepBound, State.initial, size, List.length_cons, List.length_nil] at bounded ⊢
  omega

theorem run_ne_endless (phrases : grammar.BuildsPhrases) (first : Token) (rest : List Token) :
    ((ofGrammar grammar).parser.run (stepBound (first :: rest))
      (State.initial first rest).configuration []).value ≠ .error .endless :=
  Parser.run_ne_endless (restores _) (fun _ _ => effort_lt phrases) (List.cons_ne_nil _ _)
    (effort_initial_lt grammar.rules first rest) []

theorem finish_ne_endless (parser : Parser) (trailing : TrailingPolicy)
    (configuration : Configuration) :
    (parser.finish trailing configuration).value ≠ .error .endless := by
  rw [value_finish]
  split
  · exact nofun
  · split
    · exact nofun
    · split <;> exact nofun
    · exact nofun

/-- Rules that build phrases and pass the checks of a grammar make every parse come to an end by
itself. Within the bound on its steps the parser accepts or fails, a larger bound does not
change that, and it decides what is answered. -/
theorem parse_ends {rules : List Rule} {grammar : Grammar}
    (accepted : Grammar.ofRules rules = .ok grammar)
    (phrases : ∀ rule ∈ rules, rule.lhs.isTerminal = false) (trailing : TrailingPolicy)
    (tokens : List Token) :
    ((ofGrammar grammar).parse trailing tokens).value ≠ .error .endless ∧
    ∀ first rest, tokens = first :: rest →
      ∃ steps ≤ stepBound tokens, ∃ outcome,
        Comes (ofGrammar grammar).parser steps ⟨UndoStack.empty.push first, rest⟩ outcome ∧
        (∀ bound ≥ steps, ((ofGrammar grammar).parser.run bound
          ⟨UndoStack.empty.push first, rest⟩ []).value = outcome) ∧
        ((ofGrammar grammar).parse trailing tokens).value = outcome.bind fun final =>
          ((ofGrammar grammar).parser.finish trailing final).value := by
  rcases Grammar.ofRules_eq_ok_iff.mp accepted with rfl
  match tokens with
  | [] => exact ⟨nofun, nofun⟩
  | first :: rest =>
      have finite := run_ne_endless phrases first rest
      rcases exists_comes finite with ⟨steps, few, comes⟩
      have answer := value_parse (ofGrammar grammar).parser trailing first rest
      change ((ofGrammar grammar).parse trailing (first :: rest)).value = _ at answer
      generalize (run _ _ _ _).value = outcome at finite comes answer
      constructor
      · rw [answer]
        cases outcome with
        | ok final => exact finish_ne_endless _ trailing final
        | error error =>
            intro equal
            exact finite (congrArg Except.error (Except.error.inj equal))
      · intro first' rest' whole
        rcases List.cons.inj whole with ⟨rfl, rfl⟩
        refine ⟨steps, few, outcome, comes, fun _ enough => comes.value_run_eq enough [], ?_⟩
        rw [answer]
        cases outcome <;> rfl

def misledTokens : List Token :=
  [.leaf .blank " " ⟨0, 1, 1, 1⟩ (some ⟨1, .blank⟩), .leaf .blank " " ⟨1, 2, 1, 2⟩ (some ⟨7, .text⟩),
    .node .elements [] ⟨2, 2, 1, 3⟩ (some ⟨0, .endOfInput⟩)]

theorem parse_ends_misled :
    Grammar.ofRules Template.rules = .ok Template.grammar ∧
    (∀ rule ∈ Template.rules, rule.lhs.isTerminal = false) ∧
    ((ofGrammar Template.grammar).parse .warn misledTokens).value ≠ .error .endless ∧
    ∀ first rest, misledTokens = first :: rest →
      ∃ steps ≤ stepBound misledTokens, ∃ outcome,
        Comes (ofGrammar Template.grammar).parser steps ⟨UndoStack.empty.push first, rest⟩
          outcome ∧
        (∀ bound ≥ steps, ((ofGrammar Template.grammar).parser.run bound
          ⟨UndoStack.empty.push first, rest⟩ []).value = outcome) ∧
        ((ofGrammar Template.grammar).parse .warn misledTokens).value = outcome.bind fun final =>
          ((ofGrammar Template.grammar).parser.finish .warn final).value := by
  have accepted : Grammar.ofRules Template.rules = .ok Template.grammar :=
    Template.grammar.ofRules_rules
  have phrases : ∀ rule ∈ Template.rules, rule.lhs.isTerminal = false := by decide
  exact ⟨accepted, phrases, parse_ends accepted phrases .warn misledTokens⟩

end Table

end Stencil
