import Stencil.Proofs.Linking
import Stencil.Proofs.Table.Driving
import Stencil.Template.Grammar

/-! # Trees are derivations

What lies on the stack was derived, by rules of the grammar, from the tokens that were taken from
the input, and nothing else. In the end that is one derivation of a beginning of the input.
-/

namespace Stencil.Table

open Stencil.Parser

/-- The stack was derived from the tokens that are no longer in the input. -/
structure Traces (grammar : Grammar) (tokens : List Token) (state : State) : Prop where
  valid : ∀ part ∈ state.stack, part.Valid grammar.rules
  spelled : state.stack.reverse.flatMap Derivation.frontier ++ state.input = tokens

variable {grammar : Grammar} {tokens : List Token} {state next : State}

theorem Traces.initial (grammar : Grammar) (first : Token) (rest : List Token) :
    Traces grammar (first :: rest) (State.initial first rest) where
  valid part member := by
    rw [State.initial, List.mem_singleton] at member
    subst member
    exact .read first
  spelled := rfl

theorem Traces.shift {token : Token} {stack : List Derivation} {input : List Token}
    (traces : Traces grammar tokens ⟨stack, token :: input⟩) :
    Traces grammar tokens ⟨.read token :: stack, input⟩ where
  valid part member := by
    rcases List.mem_cons.mp member with rfl | member
    · exact .read token
    · exact traces.valid part member
  spelled := by
    rw [← traces.spelled]
    simp [Derivation.frontier]

theorem Traces.reduce (traces : Traces grammar tokens state) {index : Nat} {rule : Rule}
    (numbered : grammar.rules[index]? = some rule) (reduces : state.Reduces index rule next) :
    Traces grammar tokens next := by
  cases reduces with
  | @apply parts kinds below input =>
      constructor
      · intro part member
        rcases List.mem_cons.mp member with rfl | member
        · refine .built numbered kinds ?_
          intro inner among
          exact traces.valid inner (by simp [among])
        · exact traces.valid part (by simp [member])
      · rw [← traces.spelled]
        simp [Derivation.frontier_built]

theorem Traces.move (traces : Traces grammar tokens state)
    (moves : Moves (ofGrammar grammar).parser state next) : Traces grammar tokens next := by
  cases moves with
  | shift => exact traces.shift
  | reduce decided reduces => exact traces.reduce (getElem?_of_reduce decided) reduces

theorem Traces.reach (traces : Traces grammar tokens state)
    (reaches : Reaches (ofGrammar grammar).parser state next) : Traces grammar tokens next := by
  induction reaches with
  | refl => exact traces
  | tail _ moves induction => exact induction.move moves

theorem Traces.accept (traces : Traces grammar tokens state)
    (accepts : Accepts (ofGrammar grammar).parser state next) : Traces grammar tokens next := by
  cases accepts with
  | accept decided reduces => exact traces.reduce (of_accept decided).1 reduces

theorem Traces.lookahead_eq (traces : Traces grammar tokens state) (linked : Token.Linked tokens)
    (nonempty : state.stack ≠ []) : state.lookahead = state.input.head?.map Token.kind := by
  match state, nonempty with
  | ⟨top :: below, input⟩, _ =>
      have valid : top.Valid grammar.rules := traces.valid top List.mem_cons_self
      have spelled : below.reverse.flatMap Derivation.frontier ++ (top.frontier ++ input) =
          tokens := by
        rw [← traces.spelled]
        simp
      rw [← spelled] at linked
      have last := linked.append_right.getLast?_lookahead valid.frontier_ne_nil
      rw [← valid.lookahead_token] at last
      exact last

theorem accepted_root {first : Token} {rest : List Token} {last : State} {root : Derivation}
    {unread : List Token}
    (reaches : Reaches (ofGrammar grammar).parser (State.initial first rest) last)
    (accepts : Accepts (ofGrammar grammar).parser last ⟨[root], unread⟩) :
    ∃ index rule parts, root = .built index rule parts ∧ rule.completesParse = true ∧
      root.Valid grammar.rules ∧ root.frontier ++ unread = first :: rest := by
  have traces := ((Traces.initial grammar first rest).reach reaches).accept accepts
  have valid : root.Valid grammar.rules := traces.valid root (List.mem_singleton.mpr rfl)
  have spelled : root.frontier ++ unread = first :: rest := by
    rw [← traces.spelled]
    simp
  generalize final : State.mk [root] unread = state at accepts
  cases accepts with
  | accept decided reduces =>
      cases reduces
      cases final
      exact ⟨_, _, _, rfl, (of_accept decided).2.1, valid, spelled⟩

/-- A tree that a parse answers is a derivation of the start symbol from a beginning of the input,
by a rule that completes a parse, and the whole input is used if nothing may be left over. -/
theorem parse_sound {grammar : Grammar} {trailing : TrailingPolicy} {tokens : List Token}
    {tree : Token} (parsed : ((ofGrammar grammar).parse trailing tokens).value = .ok tree) :
    ∃ index rule parts count,
      (Derivation.built index rule parts).token = tree ∧
      (Derivation.built index rule parts).Valid grammar.rules ∧
      rule.completesParse = true ∧ tree.kind = grammar.start ∧
      (Derivation.built index rule parts).frontier = tokens.take count ∧
      count ≤ tokens.length ∧ (trailing = .refuse → count = tokens.length) := by
  rcases exists_of_parse_eq_ok (restores _) parsed with
    ⟨first, rest, last, root, unread, rfl, reaches, accepts, rfl, start, allowed⟩
  rcases accepted_root reaches accepts with
    ⟨index, rule, parts, rfl, completes, valid, spelled⟩
  refine ⟨index, rule, parts, (Derivation.built index rule parts).frontier.length, rfl, valid,
    completes, start, ?_, ?_, ?_⟩
  · rw [← spelled, List.take_left]
  · rw [← spelled, List.length_append]
    exact Nat.le_add_right _ _
  · intro refuse
    rw [← spelled, allowed refuse, List.append_nil]

def trailedTokens : List Token :=
  [.leaf .text "a" ⟨0, 1, 1, 1⟩ (some ⟨1, .endOfInput⟩), .leaf .endOfInput "" ⟨1, 1, 1, 2⟩ none,
    .leaf .text "b" ⟨1, 2, 1, 2⟩ none]

theorem parse_sound_trailedTokens :
    ∃ tree, ((ofGrammar Template.grammar).parse .warn trailedTokens).value = .ok tree ∧
      ∃ index rule parts count,
        (Derivation.built index rule parts).token = tree ∧
        (Derivation.built index rule parts).Valid Template.grammar.rules ∧
        rule.completesParse = true ∧ tree.kind = Template.grammar.start ∧
        (Derivation.built index rule parts).frontier = trailedTokens.take count ∧
        count ≤ trailedTokens.length ∧
        (TrailingPolicy.warn = .refuse → count = trailedTokens.length) := by
  have done : ((ofGrammar Template.grammar).parse .warn trailedTokens).value.isOk = true := by
    decide +kernel
  rcases Attempt.exists_of_isOk done with ⟨tree, parsed⟩
  exact ⟨tree, parsed, parse_sound parsed⟩

end Stencil.Table
