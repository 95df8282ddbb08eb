import Stencil.Proofs.Grammar.Terminated
import Stencil.Proofs.Parse.Steps
import Stencil.Proofs.Table.Deciding
import Stencil.Proofs.Table.Items

/-! # Parsers that a table drives

What the steps of a parser say about the grammar if a decision table chooses them.
-/

namespace Stencil.Table

open Stencil.Parser

theorem restores (table : Table) : table.parser.Restores :=
  fun elements lookahead => decide_snd table elements lookahead

variable {grammar : Grammar}

theorem decision_cons (table : Table) (top : Derivation) (below : List Derivation)
    (input : List Token) :
    State.decision ⟨top :: below, input⟩ table.parser =
      (table.decide ⟨top.token :: below.map Derivation.token, []⟩
        (top.token.lookahead.map (·.symbol))).1 := rfl

theorem exists_of_decision {state : State} {action : Action}
    (decided : state.decision (ofGrammar grammar).parser = .ok action) :
    ∃ top below index rule before after, state.stack = top :: below ∧
      grammar.rules[index]? = some rule ∧
      rule.rhs = before ++ top.kind :: after ∧
      (Item.atPlace grammar.surroundings index rule before top.kind after).action = action ∧
      (Item.atPlace grammar.surroundings index rule before top.kind after).lookaheads.contains
        state.lookahead = true := by
  match state with
  | ⟨[], input⟩ => cases decided
  | ⟨top :: below, input⟩ =>
      rw [decision_cons] at decided
      rcases exists_of_decide_eq_ok decided with ⟨item, member, acts, next⟩
      rw [Derivation.kind_token] at member
      rcases mem_items_iff.mp member with ⟨index, rule, before, after, numbered, split, rfl⟩
      exact ⟨top, below, index, rule, before, after, rfl, numbered, split, acts, next⟩

theorem getElem?_of_reduce {state : State} {index : Nat} {rule : Rule}
    (decided : state.decision (ofGrammar grammar).parser = .ok (.reduce index rule)) :
    grammar.rules[index]? = some rule := by
  rcases exists_of_decision decided with
    ⟨top, below, index', rule', before, after, _, numbered, _, acts, _⟩
  cases after with
  | nil =>
      unfold Item.atPlace at acts
      dsimp only at acts
      split at acts
      · cases acts
      · cases acts
        exact numbered
  | cons next later => cases acts

theorem of_accept {state : State} {index : Nat} {rule : Rule}
    (decided : state.decision (ofGrammar grammar).parser = .ok (.accept index rule)) :
    grammar.rules[index]? = some rule ∧ rule.completesParse = true ∧
      (grammar.surroundings.follow.get rule.lhs).contains state.lookahead = true := by
  rcases exists_of_decision decided with
    ⟨top, below, index', rule', before, after, _, numbered, place, acts, next⟩
  cases after with
  | nil =>
      unfold Item.atPlace at acts next
      dsimp only at acts next
      split at acts
      · rename_i completes
        cases acts
        exact ⟨numbered, (Rule.completesParse_iff place).mpr completes, next⟩
      · cases acts
  | cons next later => cases acts

end Stencil.Table
