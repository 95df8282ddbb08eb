import Stencil.Proofs.Grammar.Closure
import Stencil.Proofs.Linking
import Stencil.Proofs.Parse.Termination
import Stencil.Template.Grammar

/-! # Sentences are parsed or found ambiguous

A derivation says what a parser has to do to build it. At every step the item that does so fits what
is next in the input and what lies on the stack, so the parser does it, unless another item fits that
would do something else.
-/

namespace Stencil

namespace Derivation

theorem Valid.first_frontier {grammar : Grammar} (phrases : grammar.BuildsPhrases)
    {derivation : Derivation} (valid : derivation.Valid grammar.rules) {first : Token}
    {later : List Token} (frontier : derivation.frontier = first :: later)
    (terminal : first.kind.isTerminal = true) :
    (grammar.surroundings.first.get derivation.kind).contains (some first.kind) = true := by
  induction valid generalizing later with
  | read token =>
      rcases (List.cons.inj frontier).1 with rfl
      exact grammar.first_terminal terminal
  | @built index rule parts numbered kinds valid induction =>
      have member := List.mem_of_getElem? numbered
      match parts with
      | [] => exact absurd kinds.symm rule.rhs_ne_nil
      | part :: more =>
          have head : rule.head = part.kind := by simp [Rule.head, ← kinds]
          match partFrontier : part.frontier with
          | [] => exact absurd partFrontier (valid part List.mem_cons_self).frontier_ne_nil
          | token :: tokens =>
              rw [frontier_built, List.flatMap_cons, partFrontier] at frontier
              rcases (List.cons.inj frontier).1 with rfl
              have held := induction part List.mem_cons_self partFrontier
              rw [← head] at held
              exact grammar.first_lhs member (phrases rule member) held

end Derivation

namespace Table

open Stencil.Parser

/-- Two items of the symbol on top fit and disagree about what to do. -/
def Torn (table : Table) (state : State) : Prop :=
  ∃ top below, state.stack = top :: below ∧
    ∃ left ∈ table.items.get top.kind, ∃ right ∈ table.items.get top.kind,
      left.Fits state.lookahead (top.kind :: below.map Derivation.kind) ∧
      right.Fits state.lookahead (top.kind :: below.map Derivation.kind) ∧
      left.action ≠ right.action

theorem Torn.fails_on {table : Table} {top : Derivation} {below : List Derivation}
    {input : List Token} (torn : Torn table ⟨top :: below, input⟩) :
    ∃ line column fitting, Fails table.parser ⟨top :: below, input⟩
      (.decision line column (.ambiguous top.kind fitting)) := by
  rcases torn with ⟨_, _, shown, left, leftMember, right, rightMember, leftFits, rightFits,
    differ⟩
  rcases List.cons.inj shown with ⟨rfl, rfl⟩
  rw [← Derivation.map_kind_token, ← Derivation.kind_token] at leftFits rightFits
  rw [← Derivation.kind_token] at leftMember rightMember
  rcases decide_eq_ambiguous leftMember rightMember leftFits rightFits differ with
    ⟨fitting, ambiguous⟩
  rw [Derivation.kind_token] at ambiguous
  exact ⟨_, _, _, .undecided ambiguous⟩

theorem Torn.fails {table : Table} {state : State} (torn : Torn table state) :
    ∃ line column top fitting,
      Fails table.parser state (.decision line column (.ambiguous top fitting)) := by
  rcases state with ⟨stack, input⟩
  rcases torn with ⟨top, below, rfl, items⟩
  rcases Torn.fails_on ⟨top, below, rfl, items⟩ with ⟨line, column, fitting, fails⟩
  exact ⟨line, column, top.kind, fitting, fails⟩

/-- On the way from a state an ambiguity is found. -/
def Conflicts (table : Table) (state : State) : Prop :=
  ∃ last, Reaches table.parser state last ∧ Torn table last

theorem Conflicts.of_reaches {table : Table} {state later : State}
    (reaches : Reaches table.parser state later) (conflicts : Conflicts table later) :
    Conflicts table state := by
  rcases conflicts with ⟨last, path, torn⟩
  exact ⟨last, reaches.trans path, torn⟩

variable {grammar : Grammar}

theorem decision_or_conflicts {top : Derivation} {below : List Derivation} (input : List Token)
    {item : Item} (member : item ∈ (ofGrammar grammar).items.get top.kind)
    (fits : item.Fits (top.token.lookahead.map (·.symbol))
      (top.kind :: below.map Derivation.kind)) :
    State.decision ⟨top :: below, input⟩ (ofGrammar grammar).parser = .ok item.action ∨
      Conflicts (ofGrammar grammar) ⟨top :: below, input⟩ := by
  by_cases rivals : ∃ rival ∈ (ofGrammar grammar).items.get top.kind,
      rival.Fits (top.token.lookahead.map (·.symbol))
        (top.kind :: below.map Derivation.kind) ∧
      item.action ≠ rival.action
  · right
    rcases rivals with ⟨rival, rivalMember, rivalFits, differ⟩
    exact ⟨_, .refl, top, below, rfl, item, member, rival, rivalMember, fits, rivalFits, differ⟩
  · left
    rw [← Derivation.kind_token] at member
    rw [← Derivation.map_kind_token, ← Derivation.kind_token] at fits
    apply decide_eq_ok_of_fits member fits
    intro other otherMember otherFits
    rw [Derivation.kind_token] at otherMember
    rw [Derivation.map_kind_token, Derivation.kind_token] at otherFits
    apply Decidable.byContradiction
    intro differ
    exact rivals ⟨other, otherMember, otherFits, fun equal => differ equal.symm⟩

/-- A symbol may stand above an element of the stack and in front of a token. -/
structure Suits (grammar : Grammar) (symbol : Symbol) (below next : Option Symbol) : Prop where
  above : (grammar.surroundings.precede.get symbol).contains below = true
  before : symbol.isTerminal = false →
    (grammar.surroundings.follow.get symbol).contains next = true

/-- The derivations that a rule puts together, at a place where the phrase suits. -/
structure Assembly (grammar : Grammar) (index : Nat) (rule : Rule) (parts : List Derivation)
    (below : List Derivation) (rest : List Token) : Prop where
  numbered : grammar.rules[index]? = some rule
  kinds : parts.map Derivation.kind = rule.rhs
  valid : ∀ part ∈ parts, part.Valid grammar.rules
  terminal : ∀ token ∈ parts.flatMap Derivation.frontier, token.kind.isTerminal = true
  linked : Token.Linked (parts.flatMap Derivation.frontier ++ rest)
  suits : Suits grammar rule.lhs (below.head?.map Derivation.kind) (rest.head?.map Token.kind)

namespace Assembly

variable {index : Nat} {rule : Rule} {parts below : List Derivation} {rest : List Token}
  {done : List Derivation} {part : Derivation} {more : List Derivation}

section Places

variable (assembly : Assembly grammar index rule parts below rest)
  (split : parts = done ++ part :: more)

include assembly

theorem member : rule ∈ grammar.rules :=
  List.mem_of_getElem? assembly.numbered

include split

theorem rhs_eq :
    rule.rhs = done.map Derivation.kind ++ part.kind :: more.map Derivation.kind := by
  rw [← assembly.kinds, split, List.map_append, List.map_cons]

theorem first (phrases : grammar.BuildsPhrases) :
    (grammar.surroundings.first.get part.kind).contains
      (((part :: more).flatMap Derivation.frontier ++ rest).head?.map Token.kind) = true := by
  have valid := assembly.valid part (by simp [split])
  match frontier : part.frontier with
  | [] => exact absurd frontier valid.frontier_ne_nil
  | token :: later =>
      have terminal := assembly.terminal token (by simp [split, frontier])
      have held := valid.first_frontier phrases frontier terminal
      simpa [frontier] using held

theorem follow (phrases : grammar.BuildsPhrases) (phrase : part.kind.isTerminal = false) :
    (grammar.surroundings.follow.get part.kind).contains
      ((more.flatMap Derivation.frontier ++ rest).head?.map Token.kind) = true := by
  have place := assembly.rhs_eq split
  match more with
  | [] =>
      exact grammar.follow_last assembly.member place phrase
        (assembly.suits.before (phrases rule assembly.member))
  | next :: later =>
      have further : parts = (done ++ [part]) ++ next :: later := by simp [split]
      exact grammar.follow_inner assembly.member place phrase (assembly.first further phrases)

theorem lookahead : part.token.lookahead.map (·.symbol) =
    (more.flatMap Derivation.frontier ++ rest).head?.map Token.kind := by
  have valid := assembly.valid part (by simp [split])
  have linked := assembly.linked
  rw [split, List.flatMap_append, List.flatMap_cons, List.append_assoc, List.append_assoc]
    at linked
  rw [valid.lookahead_token]
  exact linked.append_right.getLast?_lookahead valid.frontier_ne_nil

theorem fits (phrases : grammar.BuildsPhrases) :
    (Item.atPlace grammar.surroundings index rule (done.map Derivation.kind) part.kind
      (more.map Derivation.kind)).Fits (part.token.lookahead.map (·.symbol))
      (part.kind :: (done.reverse ++ below).map Derivation.kind) := by
  constructor
  · rw [assembly.lookahead split]
    match more with
    | [] => exact assembly.suits.before (phrases rule assembly.member)
    | next :: later =>
        have further : parts = (done ++ [part]) ++ next :: later := by simp [split]
        exact assembly.first further phrases
  · refine ⟨below.map Derivation.kind, ?_, ?_⟩
    · rw [Item.expected_atPlace]
      simp
    · rw [Item.mayStartAbove, Item.preceding_atPlace, List.head?_map]
      exact assembly.suits.above

end Places

theorem kind_ne_start (assembly : Assembly grammar index rule parts below rest)
    (terminated : grammar.Terminated) (among : part ∈ parts) : part.kind ≠ grammar.start := by
  intro start
  apply terminated.unused rule assembly.member
  rw [← start, ← assembly.kinds]
  exact List.mem_map_of_mem among

theorem terminal_part (assembly : Assembly grammar index rule parts below rest)
    (among : part ∈ parts) : ∀ token ∈ part.frontier, token.kind.isTerminal = true := by
  intro token member
  exact assembly.terminal token (List.mem_flatMap.mpr ⟨part, among, member⟩)

theorem suits_head (assembly : Assembly grammar index rule (part :: more) below rest)
    (phrases : grammar.BuildsPhrases) :
    Suits grammar part.kind (below.head?.map Derivation.kind)
      ((more.flatMap Derivation.frontier ++ rest).head?.map Token.kind) where
  above := by
    have head : rule.head = part.kind := by simp [Rule.head, ← assembly.kinds]
    rw [← head]
    exact grammar.precede_head assembly.member assembly.suits.above
  before := assembly.follow (List.nil_append _).symm phrases

theorem suits_next {next : Derivation}
    (assembly : Assembly grammar index rule (done ++ part :: next :: more) below rest)
    (phrases : grammar.BuildsPhrases) :
    Suits grammar next.kind (some part.kind)
      ((more.flatMap Derivation.frontier ++ rest).head?.map Token.kind) where
  above := grammar.precede_neighbour assembly.member (assembly.rhs_eq rfl)
  before := by
    have further : done ++ part :: next :: more = (done ++ [part]) ++ next :: more := by simp
    exact assembly.follow further phrases

end Assembly

/-- Wherever a derivation suits, a parser that has read its first token goes on to build it. -/
def Arises (grammar : Grammar) (derivation : Derivation) : Prop :=
  ∀ (below : List Derivation) (first : Token) (later rest : List Token),
    derivation.frontier = first :: later → Token.Linked (derivation.frontier ++ rest) →
    Suits grammar derivation.kind (below.head?.map Derivation.kind)
      (rest.head?.map Token.kind) →
    Reaches (ofGrammar grammar).parser ⟨.read first :: below, later ++ rest⟩
        ⟨derivation :: below, rest⟩ ∨
      Conflicts (ofGrammar grammar) ⟨.read first :: below, later ++ rest⟩

def completion (index : Nat) (rule : Rule) : Action :=
  if rule.completesParse then .accept index rule else .reduce index rule

def Applies (grammar : Grammar) (index : Nat) (rule : Rule) (parts below : List Derivation)
    (rest : List Token) (state : State) : Prop :=
  (Reaches (ofGrammar grammar).parser state ⟨parts.reverse ++ below, rest⟩ ∧
    State.decision ⟨parts.reverse ++ below, rest⟩ (ofGrammar grammar).parser =
      .ok (completion index rule)) ∨
  Conflicts (ofGrammar grammar) state

theorem Applies.of_reaches {index : Nat} {rule : Rule} {parts below : List Derivation}
    {rest : List Token} {state later : State}
    (path : Reaches (ofGrammar grammar).parser state later)
    (applies : Applies grammar index rule parts below rest later) :
    Applies grammar index rule parts below rest state := by
  rcases applies with ⟨reaches, decided⟩ | conflicts
  · exact .inl ⟨path.trans reaches, decided⟩
  · exact .inr (conflicts.of_reaches path)

namespace Assembly

variable {index : Nat} {rule : Rule} {parts below : List Derivation} {rest : List Token}

theorem applies_from (assembly : Assembly grammar index rule parts below rest)
    (phrases : grammar.BuildsPhrases) (arises : ∀ part ∈ parts, Arises grammar part)
    {done : List Derivation} {part : Derivation} {more : List Derivation}
    (split : parts = done ++ part :: more) :
    Applies grammar index rule parts below rest
      ⟨part :: (done.reverse ++ below), more.flatMap Derivation.frontier ++ rest⟩ := by
  induction more generalizing done part with
  | nil =>
      have member := mem_items_iff.mpr ⟨index, rule, _, _, assembly.numbered,
        assembly.rhs_eq split, rfl⟩
      have whole : part :: (done.reverse ++ below) = parts.reverse ++ below := by simp [split]
      rcases decision_or_conflicts rest member (assembly.fits split phrases) with
        decided | conflicts
      · left
        rw [whole] at decided
        simp only [List.flatMap_nil, List.nil_append, whole]
        refine ⟨.refl, decided.trans ?_⟩
        simp only [Item.atPlace, completion, List.map_nil,
          Rule.completesParse_iff (assembly.rhs_eq split)]
      · exact .inr conflicts
  | cons next later induction =>
      have member := mem_items_iff.mpr ⟨index, rule, _, _, assembly.numbered,
        assembly.rhs_eq split, rfl⟩
      have further : parts = (done ++ [part]) ++ next :: later := by simp [split]
      have among : next ∈ parts := by simp [split]
      cases frontier : next.frontier with
      | nil => exact absurd frontier (assembly.valid next among).frontier_ne_nil
      | cons token tokens =>
          rcases decision_or_conflicts
              (token :: (tokens ++ (later.flatMap Derivation.frontier ++ rest)))
              member (assembly.fits split phrases) with decided | conflicts
          · have shifted := Relation.ReflTransGen.single (Moves.shift decided)
            have linked := assembly.linked
            rw [further, List.flatMap_append, List.flatMap_cons, List.append_assoc,
              List.append_assoc] at linked
            have suits := (split ▸ assembly).suits_next phrases
            rw [List.flatMap_cons, frontier]
            simp only [List.cons_append, List.append_assoc]
            apply Applies.of_reaches shifted
            rcases arises next among (part :: (done.reverse ++ below)) token tokens _ frontier
                linked.append_right suits with built | conflicts
            · apply Applies.of_reaches built
              simpa using induction further
            · exact .inr conflicts
          · rw [List.flatMap_cons, frontier]
            simp only [List.cons_append, List.append_assoc]
            exact .inr conflicts

theorem applies (assembly : Assembly grammar index rule parts below rest)
    (phrases : grammar.BuildsPhrases) (arises : ∀ part ∈ parts, Arises grammar part)
    {first : Token} {later : List Token}
    (frontier : parts.flatMap Derivation.frontier = first :: later) :
    Applies grammar index rule parts below rest ⟨.read first :: below, later ++ rest⟩ := by
  match parts with
  | [] => cases frontier
  | part :: more =>
      match partFrontier : part.frontier with
      | [] => exact absurd partFrontier (assembly.valid part List.mem_cons_self).frontier_ne_nil
      | token :: tokens =>
          rw [List.flatMap_cons, partFrontier, List.cons_append] at frontier
          rcases List.cons.inj frontier with ⟨rfl, rfl⟩
          have linked := assembly.linked
          rw [List.flatMap_cons, List.append_assoc] at linked
          rw [List.append_assoc]
          rcases arises part List.mem_cons_self below token tokens _ partFrontier linked
              (assembly.suits_head phrases) with built | conflicts
          · exact (assembly.applies_from phrases arises (List.nil_append _).symm).of_reaches built
          · exact .inr conflicts

end Assembly

theorem arises_of_valid (terminated : grammar.Terminated) {derivation : Derivation}
    (valid : derivation.Valid grammar.rules) (inner : derivation.kind ≠ grammar.start)
    (terminal : ∀ token ∈ derivation.frontier, token.kind.isTerminal = true) :
    Arises grammar derivation := by
  induction valid with
  | read token =>
      intro below first later rest frontier _ _
      rcases List.cons.inj frontier with ⟨rfl, rfl⟩
      exact .inl .refl
  | @built index rule parts numbered kinds valid induction =>
      intro below first later rest frontier linked suits
      rw [Derivation.frontier_built] at frontier linked terminal
      have assembly : Assembly grammar index rule parts below rest :=
        ⟨numbered, kinds, valid, terminal, linked, suits⟩
      have arises : ∀ part ∈ parts, Arises grammar part := by
        intro part among
        exact induction part among (assembly.kind_ne_start terminated among)
          (assembly.terminal_part among)
      have incomplete : rule.completesParse = false := by
        rw [Bool.eq_false_iff]
        intro completes
        exact inner ((terminated.completes rule assembly.member).mp completes)
      rcases assembly.applies terminated.phrases arises frontier with
        ⟨reaches, decided⟩ | conflicts
      · left
        rw [completion, incomplete, if_neg Bool.false_ne_true] at decided
        exact reaches.tail (.reduce decided (.apply kinds below rest))
      · exact .inr conflicts

theorem accepts_or_conflicts (terminated : grammar.Terminated) {derivation : Derivation}
    {first : Token} {rest : List Token} (derives : derivation.Derives grammar (first :: rest))
    (terminal : ∀ token ∈ first :: rest, token.kind.isTerminal = true)
    (linked : Token.Linked (first :: rest)) :
    (∃ last, Reaches (ofGrammar grammar).parser (State.initial first rest) last ∧
      Accepts (ofGrammar grammar).parser last ⟨[derivation], []⟩) ∨
    Conflicts (ofGrammar grammar) (State.initial first rest) := by
  rcases derives with ⟨valid, start, frontier⟩
  cases valid with
  | read token =>
      have phrase := terminated.phrases.start
      have leaf := terminal token (by simp [← frontier, Derivation.frontier])
      rw [← start] at phrase
      rw [Derivation.kind, leaf] at phrase
      cases phrase
  | @built index rule parts numbered kinds valid =>
      rw [Derivation.frontier_built] at frontier
      have assembly : Assembly grammar index rule parts [] [] := by
        refine ⟨numbered, kinds, valid, by rwa [frontier], by rwa [frontier, List.append_nil], ?_⟩
        rw [show rule.lhs = grammar.start from start]
        exact ⟨grammar.precede_start, fun _ => grammar.follow_start⟩
      have arises : ∀ part ∈ parts, Arises grammar part := by
        intro part among
        exact arises_of_valid terminated (valid part among)
          (assembly.kind_ne_start terminated among) (assembly.terminal_part among)
      have completes : rule.completesParse = true :=
        (terminated.completes rule assembly.member).mpr start
      have applies := assembly.applies terminated.phrases arises frontier
      rw [List.append_nil] at applies
      rcases applies with ⟨reaches, decided⟩ | conflicts
      · left
        rw [completion, if_pos completes] at decided
        exact ⟨_, reaches, .accept decided (.apply kinds [] [])⟩
      · exact .inr conflicts

/-- A sentence is parsed to its derivation, or an ambiguity is reported. -/
theorem parse_complete {grammar : Grammar} (terminated : grammar.Terminated)
    {derivation : Derivation} {tokens : List Token} (derives : derivation.Derives grammar tokens)
    (terminal : ∀ token ∈ tokens, token.kind.isTerminal = true) (linked : Token.Linked tokens)
    (trailing : TrailingPolicy) :
    ((ofGrammar grammar).parse trailing tokens).value = .ok derivation.token ∨
      ∃ line column top fitting, ((ofGrammar grammar).parse trailing tokens).value =
        .error (.decision line column (.ambiguous top fitting)) := by
  match tokens with
  | [] => exact absurd derives.frontier_eq derives.valid.frontier_ne_nil
  | first :: rest =>
      have finite := run_ne_endless terminated.phrases first rest
      rcases accepts_or_conflicts terminated derives terminal linked with
        ⟨last, reaches, accepts⟩ | ⟨last, reaches, torn⟩
      · left
        exact parse_eq_of_accepts (restores _) finite reaches accepts derives.kind_eq trailing
      · right
        rcases torn.fails with ⟨line, column, top, fitting, fails⟩
        exact ⟨line, column, top, fitting,
          parse_eq_of_fails (restores _) finite reaches fails trailing⟩

def placeholderDerivation : Derivation :=
  .spelled 0 .source .elements [.endOfInput]
    [.spelled 1 .elements .element []
      [.spelled 3 .element .placeholder []
        [.spelled 7 .placeholder .openBraces [.dot, .name, .closeBraces]
          [.read (.leaf .openBraces "\x7b\x7b" ⟨0, 2, 1, 1⟩ (some ⟨1, .dot⟩)),
            .read (.leaf .dot "." ⟨2, 3, 1, 3⟩ (some ⟨2, .name⟩)),
            .read (.leaf .name "A" ⟨3, 4, 1, 4⟩ (some ⟨3, .closeBraces⟩)),
            .read (.leaf .closeBraces "\x7d\x7d" ⟨4, 6, 1, 5⟩ (some ⟨4, .endOfInput⟩))]]],
      .read (.leaf .endOfInput "" ⟨6, 6, 1, 7⟩ none)]

theorem parse_complete_placeholder :
    Template.grammar.Terminated ∧
      placeholderDerivation.Derives Template.grammar placeholderDerivation.frontier ∧
      (∀ token ∈ placeholderDerivation.frontier, token.kind.isTerminal = true) ∧
      Token.Linked placeholderDerivation.frontier ∧
      (((ofGrammar Template.grammar).parse .refuse placeholderDerivation.frontier).value =
          .ok placeholderDerivation.token ∨
        ∃ line column top fitting,
          ((ofGrammar Template.grammar).parse .refuse placeholderDerivation.frontier).value =
            .error (.decision line column (.ambiguous top fitting))) := by
  have terminated : Template.grammar.Terminated := by decide
  have derives : placeholderDerivation.Derives Template.grammar
      placeholderDerivation.frontier := by decide
  have terminal : ∀ token ∈ placeholderDerivation.frontier, token.kind.isTerminal = true := by
    decide
  have linked : Token.Linked placeholderDerivation.frontier := by decide
  exact ⟨terminated, derives, terminal, linked,
    parse_complete terminated derives terminal linked .refuse⟩

end Table

end Stencil
