import Stencil.Proofs.Parse.Completeness
import Stencil.Proofs.Parse.Soundness

/-! # No ambiguity goes unnoticed

A parser that reaches the end of a sentence without finding an ambiguity has been led there by every
derivation of the sentence. It can end in one way only, so there is only one derivation.
-/

namespace Stencil.Table

open Stencil.Parser

variable {grammar : Grammar} {first : Token} {rest : List Token}

theorem unread_eq_nil_of_accepts (terminated : grammar.Terminated)
    (linked : Token.Linked (first :: rest)) {last : State} {root : Derivation}
    {unread : List Token}
    (reaches : Reaches (ofGrammar grammar).parser (State.initial first rest) last)
    (accepts : Accepts (ofGrammar grammar).parser last ⟨[root], unread⟩) : unread = [] := by
  have traces := (Traces.initial grammar first rest).reach reaches
  generalize final : State.mk [root] unread = state at accepts
  cases accepts with
  | accept decided reduces =>
      rcases of_accept decided with ⟨numbered, completes, follows⟩
      rw [(terminated.completes _ (List.mem_of_getElem? numbered)).mp completes,
        traces.lookahead_eq linked reduces.stack_ne_nil] at follows
      have ended := grammar.follow_start_only terminated.unused follows
      cases reduces
      cases final
      simpa using ended

theorem eq_of_accepts (terminated : grammar.Terminated)
    (terminal : ∀ token ∈ first :: rest, token.kind.isTerminal = true)
    (linked : Token.Linked (first :: rest)) {last : State} {root : Derivation}
    {unread : List Token}
    (reaches : Reaches (ofGrammar grammar).parser (State.initial first rest) last)
    (accepts : Accepts (ofGrammar grammar).parser last ⟨[root], unread⟩)
    {derivation : Derivation} (derives : derivation.Derives grammar (first :: rest)) :
    derivation = root := by
  have halted := accepts.halted (restores _)
  rcases accepts_or_conflicts terminated derives terminal linked with
    ⟨last', reaches', accepts'⟩ | ⟨last', reaches', torn⟩
  · rcases halted_unique reaches reaches' halted (accepts'.halted (restores _)) with rfl
    have same := congrArg State.stack (accepts'.unique accepts)
    exact (List.cons.inj same).1
  · rcases torn.fails with ⟨line, column, top, fitting, fails⟩
    rcases halted_unique reaches reaches' halted (fails.halted (restores _)) with rfl
    have same := (Leads.accepted accepts).value_step (restores _)
    rw [(Leads.failed fails).value_step (restores _)] at same
    cases same

theorem conflicts_of_ne (terminated : grammar.Terminated)
    (terminal : ∀ token ∈ first :: rest, token.kind.isTerminal = true)
    (linked : Token.Linked (first :: rest)) {left right : Derivation}
    (leftDerives : left.Derives grammar (first :: rest))
    (rightDerives : right.Derives grammar (first :: rest)) (differ : left ≠ right) :
    Conflicts (ofGrammar grammar) (State.initial first rest) := by
  rcases accepts_or_conflicts terminated leftDerives terminal linked with
    ⟨last, reaches, accepts⟩ | conflicts
  · have same := eq_of_accepts terminated terminal linked reaches accepts rightDerives
    exact absurd same.symm differ
  · exact conflicts

theorem exists_accepted (terminated : grammar.Terminated) {trailing : TrailingPolicy}
    {tokens : List Token} {tree : Token} (linked : Token.Linked tokens)
    (parsed : ((ofGrammar grammar).parse trailing tokens).value = .ok tree) :
    ∃ first rest last root, tokens = first :: rest ∧
      Reaches (ofGrammar grammar).parser (State.initial first rest) last ∧
      Accepts (ofGrammar grammar).parser last ⟨[root], []⟩ ∧
      root.token = tree ∧ root.Derives grammar tokens := by
  rcases exists_of_parse_eq_ok (restores _) parsed with
    ⟨first, rest, last, root, unread, rfl, reaches, accepts, rfl, start, _⟩
  rcases accepted_root reaches accepts with ⟨_, _, _, _, _, valid, spelled⟩
  rcases unread_eq_nil_of_accepts terminated linked reaches accepts with rfl
  rw [List.append_nil] at spelled
  rw [Derivation.kind_token] at start
  exact ⟨first, rest, last, root, rfl, reaches, accepts, rfl, valid, start, spelled⟩

/-- A tree that a parse answers comes from the only derivation of the sentence, so a sentence with
two derivations is always reported as ambiguous. -/
theorem parse_unambiguous {grammar : Grammar} (terminated : grammar.Terminated)
    {tokens : List Token} (terminal : ∀ token ∈ tokens, token.kind.isTerminal = true)
    (linked : Token.Linked tokens) (trailing : TrailingPolicy) :
    (∀ tree, ((ofGrammar grammar).parse trailing tokens).value = .ok tree →
      ∃ derivation : Derivation, derivation.Derives grammar tokens ∧ derivation.token = tree ∧
        ∀ other : Derivation, other.Derives grammar tokens → other = derivation) ∧
    ∀ left right : Derivation, left.Derives grammar tokens → right.Derives grammar tokens →
      left ≠ right →
      ∃ line column top fitting, ((ofGrammar grammar).parse trailing tokens).value =
        .error (.decision line column (.ambiguous top fitting)) := by
  constructor
  · intro tree parsed
    rcases exists_accepted terminated linked parsed with
      ⟨first, rest, last, root, rfl, reaches, accepts, rfl, derives⟩
    refine ⟨root, derives, rfl, ?_⟩
    intro other otherDerives
    exact eq_of_accepts terminated terminal linked reaches accepts otherDerives
  · intro left right leftDerives rightDerives differ
    match tokens with
    | [] => exact absurd leftDerives.frontier_eq leftDerives.valid.frontier_ne_nil
    | first :: rest =>
        have finite := run_ne_endless terminated.phrases first rest
        rcases accepts_or_conflicts terminated leftDerives terminal linked with
          ⟨last, reaches, accepts⟩ | ⟨last, reaches, torn⟩
        · have same := eq_of_accepts terminated terminal linked reaches accepts rightDerives
          exact absurd same.symm differ
        · rcases torn.fails with ⟨line, column, top, fitting, fails⟩
          exact ⟨line, column, top, fitting,
            parse_eq_of_fails (restores _) finite reaches fails trailing⟩

def ofElements (elements : Derivation) : Derivation :=
  .spelled 0 .source .elements [.endOfInput]
    [elements, .read (.leaf .endOfInput "" ⟨2, 2, 1, 3⟩ none)]

def blanksTogether : Derivation :=
  ofElements
    (.spelled 1 .elements .element []
      [.spelled 6 .element .blanks []
        [.spelled 9 .blanks .blank [.blanks]
          [.read (.leaf .blank " " ⟨0, 1, 1, 1⟩ (some ⟨1, .blank⟩)),
            .spelled 8 .blanks .blank []
              [.read (.leaf .blank " " ⟨1, 2, 1, 2⟩ (some ⟨2, .endOfInput⟩))]]]])

def blanksApart : Derivation :=
  ofElements
    (.spelled 2 .elements .element [.elements]
      [.spelled 6 .element .blanks []
        [.spelled 8 .blanks .blank []
          [.read (.leaf .blank " " ⟨0, 1, 1, 1⟩ (some ⟨1, .blank⟩))]],
        .spelled 1 .elements .element []
          [.spelled 6 .element .blanks []
            [.spelled 8 .blanks .blank []
              [.read (.leaf .blank " " ⟨1, 2, 1, 2⟩ (some ⟨2, .endOfInput⟩))]]]])

theorem parse_unambiguous_blanks :
    Template.grammar.Terminated ∧
      (∀ token ∈ blanksApart.frontier, token.kind.isTerminal = true) ∧
      Token.Linked blanksApart.frontier ∧
      blanksTogether.Derives Template.grammar blanksApart.frontier ∧
      blanksApart.Derives Template.grammar blanksApart.frontier ∧
      blanksTogether ≠ blanksApart ∧
      ∃ line column top fitting,
        ((ofGrammar Template.grammar).parse .warn blanksApart.frontier).value =
          .error (.decision line column (.ambiguous top fitting)) := by
  have terminated : Template.grammar.Terminated := by decide
  have terminal : ∀ token ∈ blanksApart.frontier, token.kind.isTerminal = true := by decide
  have linked : Token.Linked blanksApart.frontier := by decide
  have together : blanksTogether.Derives Template.grammar blanksApart.frontier := by decide
  have apart : blanksApart.Derives Template.grammar blanksApart.frontier := by decide
  have differ : blanksTogether ≠ blanksApart := by
    intro equal
    have tokens := congrArg Derivation.token equal
    exact absurd tokens (by decide)
  exact ⟨terminated, terminal, linked, together, apart, differ,
    (parse_unambiguous terminated terminal linked .warn).2 _ _ together apart differ⟩

end Stencil.Table
