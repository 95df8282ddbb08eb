import Stencil.Proofs.Parse.Completeness

/-! # Decisions without a shortcut

If a symbol has a single item, a decision leaves the elements below for the reduction to check, and
unless the symbol is the first one of its rule nobody asks what lies below the whole phrase. A
thorough decision asks about all of it at once, so it may refuse where the other goes on. Still both
lead to the same trees. An element of a stack that ends up in a tree is taken up by some rule, with
everything in front of it in the rule, and if it has a single place it is taken up there.
-/

namespace Stencil

namespace Table

open Stencil.Parser

/-- The decision about the top of the stack if an item is searched for even where there is only one,
with the stack as the search leaves it. -/
def thoroughProbe (table : Table) (stack : UndoStack Token) (lookahead : Option Symbol) :
    Except DecisionError Action × UndoStack Token :=
  match stack.pop with
  | (none, stack) => (.error .emptyStack, stack)
  | (some token, stack) =>
    match table.items.get token.kind with
    | [] => (.error (.unusedSymbol token.kind), stack)
    | items => decideAmong items token.kind lookahead stack

def thoroughDecide (table : Table) (stack : UndoStack Token) (lookahead : Option Symbol) :
    Except DecisionError Action × UndoStack Token :=
  let (decision, stack) := table.thoroughProbe stack lookahead
  (decision, stack.undoAll)

def thoroughParser (table : Table) : Parser :=
  ⟨table.thoroughDecide, table.grammar.start⟩

/-! ## Single decisions -/

theorem timeline_thoroughProbe (table : Table) (stack : UndoStack Token)
    (lookahead : Option Symbol) :
    (table.thoroughProbe stack lookahead).2.timeline = stack.timeline := by
  have popped := UndoStack.timeline_pop stack
  unfold thoroughProbe
  split <;> rename_i equation <;> rw [equation] at popped
  · exact popped
  · split
    · exact popped
    · exact (timeline_search _ _ _ _ _ _).trans popped

theorem restores_thorough (table : Table) : table.thoroughParser.Restores := by
  intro elements lookahead
  change (table.thoroughProbe ⟨elements, []⟩ lookahead).2.undoAll = _
  rw [UndoStack.undoAll_eq, timeline_thoroughProbe]
  simp [UndoStack.timeline, UndoStack.toList]

section Decisions

variable {table : Table} {top : Token} {below : List Token} {lookahead : Option Symbol}

theorem thoroughDecide_of_ne_nil (nonempty : table.items.get top.kind ≠ []) :
    (table.thoroughDecide ⟨top :: below, []⟩ lookahead).1 =
      conclude top.kind (findingsAmong (table.items.get top.kind) top.kind lookahead
        ⟨below, [top]⟩) := by
  change (table.thoroughProbe ⟨top :: below, []⟩ lookahead).1 = _
  rw [← decideAmong_fst]
  simp only [thoroughProbe, UndoStack.pop]

/-- A thorough decision is a decision: an item that fits is not refused by asking less. -/
theorem decide_of_thoroughDecide {action : Action}
    (decided : (table.thoroughDecide ⟨top :: below, []⟩ lookahead).1 = .ok action) :
    (table.decide ⟨top :: below, []⟩ lookahead).1 = .ok action := by
  match items : table.items.get top.kind with
  | [] =>
      change (table.thoroughProbe ⟨top :: below, []⟩ lookahead).1 = _ at decided
      simp [thoroughProbe, UndoStack.pop, items] at decided
  | [only] =>
      rw [thoroughDecide_of_ne_nil (by simp [items])] at decided
      rcases exists_of_conclude_eq_ok decided with ⟨item, found, rfl⟩
      rcases mem_findingsAmong.mp found with ⟨member, fits⟩
      rw [items, List.mem_singleton] at member
      subst member
      rw [decide_of_single items, ← List.head?_map]
      exact decideAlone_of_fits fits
  | first :: second :: more =>
      rw [thoroughDecide_of_ne_nil (by simp [items])] at decided
      rwa [decide_of_several items]

/-- Not the other way round: a dot on the bottom of the stack may wait for a name, although nothing
has opened a placeholder. -/
example :
    (Template.table.decide ⟨[.leaf .dot "." .nowhere none], []⟩ (some .name)).1.isOk = true ∧
    (Template.table.thoroughDecide ⟨[.leaf .dot "." .nowhere none], []⟩ (some .name)).1.isOk =
      false := by
  decide +kernel

end Decisions

/-! ## Places on the stack -/

/-- Every element of a stack stands where some item wants it: what the item expects lies below, and
below that lies what the phrase may start above. -/
def Seated (grammar : Grammar) : List Derivation → Prop
  | [] => True
  | top :: below =>
    (∃ item ∈ (ofGrammar grammar).items.get top.kind, ∃ lower,
      top.kind :: below.map Derivation.kind = item.expected ++ lower ∧
      item.mayStartAbove lower.head? = true) ∧
    Seated grammar below

variable {grammar : Grammar} {top : Derivation} {below : List Derivation}

theorem Seated.contains_precede (seated : Seated grammar (top :: below)) :
    (grammar.surroundings.precede.get top.kind).contains (below.head?.map Derivation.kind) =
      true := by
  rcases seated.1 with ⟨item, member, lower, shown, starts⟩
  rcases mem_items_iff.mp member with ⟨index, rule, before, after, numbered, place, rfl⟩
  have ruleMember := List.mem_of_getElem? numbered
  rw [Item.mayStartAbove, Item.preceding_atPlace] at starts
  rw [Item.expected_atPlace, List.cons_append] at shown
  rw [← List.head?_map, (List.cons.inj shown).2]
  rcases before.eq_nil_or_concat with rfl | ⟨front, last, rfl⟩
  · have head : rule.head = top.kind := by simp [Rule.head, place]
    rw [← head]
    exact grammar.precede_head ruleMember starts
  · have neighbours : rule.rhs = front ++ last :: top.kind :: after := by simpa using place
    simpa using grammar.precede_neighbour ruleMember neighbours

theorem seated_parts {index : Nat} {rule : Rule} (numbered : grammar.rules[index]? = some rule)
    {parts : List Derivation} (kinds : parts.map Derivation.kind = rule.rhs)
    (seated : Seated grammar below)
    (starts : (grammar.surroundings.precede.get rule.lhs).contains
      (below.head?.map Derivation.kind) = true) :
    Seated grammar (parts.reverse ++ below) := by
  have general : ∀ taken more : List Derivation, taken.reverse ++ more = parts →
      Seated grammar (taken ++ below) := by
    intro taken
    induction taken with
    | nil => exact fun _ _ => seated
    | cons part deeper induction =>
        intro more whole
        have deeperWhole : deeper.reverse ++ part :: more = parts := by simpa using whole
        have place : rule.rhs = deeper.reverse.map Derivation.kind ++ part.kind ::
            more.map Derivation.kind := by
          rw [← kinds, ← deeperWhole, List.map_append, List.map_cons]
        refine ⟨⟨_, mem_items_iff.mpr ⟨index, rule, _, _, numbered, place, rfl⟩,
          below.map Derivation.kind, ?_, ?_⟩, induction (part :: more) deeperWhole⟩
        · rw [Item.expected_atPlace]
          simp
        · rwa [Item.mayStartAbove, Item.preceding_atPlace, List.head?_map]
  exact general parts.reverse [] (by simp)

/-! ## Runs that lead to a tree -/

variable {state next : State}

theorem Seated.of_reduces {index : Nat} {rule : Rule}
    (numbered : grammar.rules[index]? = some rule) (reduces : state.Reduces index rule next)
    (seated : Seated grammar next.stack) : Seated grammar state.stack := by
  cases reduces with
  | apply kinds => exact seated_parts numbered kinds seated.2 seated.contains_precede

theorem Seated.of_moves (moves : Moves (ofGrammar grammar).parser state next)
    (seated : Seated grammar next.stack) : Seated grammar state.stack := by
  cases moves with
  | shift => exact seated.2
  | reduce decided reduces => exact seated.of_reduces (getElem?_of_reduce decided) reduces

theorem seated_of_accepts {root : Derivation} {unread : List Token}
    (accepts : Accepts (ofGrammar grammar).parser state ⟨[root], unread⟩)
    (start : root.kind = grammar.start) : Seated grammar state.stack := by
  generalize final : State.mk [root] unread = last at accepts
  cases accepts with
  | accept decided reduces =>
      have numbered := (of_accept decided).1
      cases reduces with
      | apply kinds below input =>
          cases final
          have bottom : Seated grammar [] := trivial
          apply seated_parts numbered kinds bottom
          rw [show Rule.lhs _ = grammar.start from start]
          exact grammar.precede_start

theorem thoroughDecide_of_seated {input : List Token}
    (seated : Seated grammar (top :: below)) {action : Action}
    (decided : State.decision ⟨top :: below, input⟩ (ofGrammar grammar).parser = .ok action) :
    State.decision ⟨top :: below, input⟩ (ofGrammar grammar).thoroughParser = .ok action := by
  rcases seated.1 with ⟨place, member, lower, shown, starts⟩
  rw [decision_cons] at decided
  change ((ofGrammar grammar).thoroughDecide ⟨top.token :: below.map Derivation.token, []⟩
    (top.token.lookahead.map (·.symbol))).1 = _
  rw [← Derivation.kind_token] at member
  have nonempty := List.ne_nil_of_mem member
  rw [thoroughDecide_of_ne_nil nonempty]
  match items : (ofGrammar grammar).items.get top.token.kind with
  | [] => exact absurd items nonempty
  | [only] =>
      rcases exists_of_decide_eq_ok decided with ⟨item, itemMember, acts, next⟩
      rw [items, List.mem_singleton] at member itemMember
      subst member
      subst itemMember
      have fits : item.Fits (top.token.lookahead.map (·.symbol))
          (top.token.kind :: (below.map Derivation.token).map Token.kind) := by
        rw [Derivation.kind_token, Derivation.map_kind_token]
        exact ⟨next, lower, shown, starts⟩
      have found : item ∈ (findingsAmong [item] top.token.kind
          (top.token.lookahead.map (·.symbol))
          ⟨below.map Derivation.token, [top.token]⟩).fitting :=
        mem_findingsAmong.mpr ⟨List.mem_singleton.mpr rfl, fits⟩
      rw [← acts]
      apply conclude_of_agree _ (List.ne_nil_of_mem found)
      intro other otherFound
      rw [List.mem_singleton.mp (mem_findingsAmong.mp otherFound).1]
  | first :: second :: more =>
      rwa [decide_of_several items, items] at decided

theorem decision_of_thorough {action : Action}
    (decided : state.decision (ofGrammar grammar).thoroughParser = .ok action) :
    state.decision (ofGrammar grammar).parser = .ok action := by
  match state with
  | ⟨[], input⟩ => cases decided
  | ⟨top :: below, input⟩ => exact decide_of_thoroughDecide decided

theorem thorough_of_decision (seated : Seated grammar state.stack) {action : Action}
    (decided : state.decision (ofGrammar grammar).parser = .ok action) :
    state.decision (ofGrammar grammar).thoroughParser = .ok action := by
  match state with
  | ⟨[], input⟩ => cases decided
  | ⟨top :: below, input⟩ => exact thoroughDecide_of_seated seated decided

theorem moves_of_agree {left right : Parser}
    (agree : ∀ action, state.decision left = .ok action → state.decision right = .ok action)
    (moves : Moves left state next) : Moves right state next := by
  cases moves with
  | shift decided => exact .shift (agree _ decided)
  | reduce decided reduces => exact .reduce (agree _ decided) reduces

theorem accepts_of_agree {left right : Parser}
    (agree : ∀ action, state.decision left = .ok action → state.decision right = .ok action)
    (accepts : Accepts left state next) : Accepts right state next := by
  cases accepts with
  | accept decided reduces => exact .accept (agree _ decided) reduces

theorem reaches_thorough (reaches : Reaches (ofGrammar grammar).parser state next)
    (seated : Seated grammar next.stack) :
    Seated grammar state.stack ∧ Reaches (ofGrammar grammar).thoroughParser state next := by
  induction reaches using Relation.ReflTransGen.head_induction_on with
  | refl => exact ⟨seated, .refl⟩
  | head moves _ induction =>
      have before := induction.1.of_moves moves
      exact ⟨before,
        induction.2.head (moves_of_agree (fun _ => thorough_of_decision before) moves)⟩

theorem reaches_of_thorough (reaches : Reaches (ofGrammar grammar).thoroughParser state next) :
    Reaches (ofGrammar grammar).parser state next :=
  Relation.ReflTransGen.mono (fun _ _ => moves_of_agree fun _ => decision_of_thorough) _ _ reaches

theorem thorough_run_ne_endless (phrases : grammar.BuildsPhrases) (first : Token)
    (rest : List Token) :
    ((ofGrammar grammar).thoroughParser.run (stepBound (first :: rest))
      (State.initial first rest).configuration []).value ≠ .error .endless := by
  apply Parser.run_ne_endless (restores_thorough _) _ (List.cons_ne_nil _ _)
    (effort_initial_lt grammar.rules first rest)
  intro state next moves
  exact effort_lt phrases (moves_of_agree (fun _ => decision_of_thorough) moves)

/-- The shortcut is harmless: whoever decides thoroughly gets the same trees from the same inputs. -/
theorem parse_eq_ok_iff_thorough {grammar : Grammar} (phrases : grammar.BuildsPhrases)
    (trailing : TrailingPolicy) (tokens : List Token) (tree : Token) :
    ((ofGrammar grammar).parse trailing tokens).value = .ok tree ↔
      ((ofGrammar grammar).thoroughParser.parse trailing tokens).value = .ok tree := by
  rw [parse, parse_eq_ok_iff (restores _) (run_ne_endless phrases),
    parse_eq_ok_iff (restores_thorough _) (thorough_run_ne_endless phrases)]
  constructor
  · rintro ⟨first, rest, last, root, unread, rfl, reaches, accepts, rfl, start, allowed⟩
    have seated := seated_of_accepts accepts (root.kind_token.symm.trans start)
    exact ⟨first, rest, last, root, unread, rfl, (reaches_thorough reaches seated).2,
      accepts_of_agree (fun _ => thorough_of_decision seated) accepts, rfl, start, allowed⟩
  · rintro ⟨first, rest, last, root, unread, rfl, reaches, accepts, rfl, start, allowed⟩
    exact ⟨first, rest, last, root, unread, rfl, reaches_of_thorough reaches,
      accepts_of_agree (fun _ => decision_of_thorough) accepts, rfl, start, allowed⟩

theorem parse_eq_ok_iff_thorough_placeholder :
    Template.grammar.BuildsPhrases ∧ ∃ tree,
      ((ofGrammar Template.grammar).parse .refuse placeholderDerivation.frontier).value =
        .ok tree ∧
      ((ofGrammar Template.grammar).thoroughParser.parse .refuse
        placeholderDerivation.frontier).value = .ok tree := by
  have phrases : Template.grammar.BuildsPhrases := by decide
  have done : ((ofGrammar Template.grammar).parse .refuse
      placeholderDerivation.frontier).value.isOk = true := by
    decide +kernel
  rcases Attempt.exists_of_isOk done with ⟨tree, parsed⟩
  exact ⟨phrases, tree, parsed, (parse_eq_ok_iff_thorough phrases .refuse _ tree).mp parsed⟩

end Table

end Stencil
