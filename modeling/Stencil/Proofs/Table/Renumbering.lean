import Stencil.Proofs.Grammar.Reordering
import Stencil.Proofs.Parse.Soundness

/-! # Rules under other numbers

An action names a rule by its number, and the items of a symbol are listed in the order of the
rules. In another order the same items come under other numbers, and one after the other in another
way. Still they fit the same stacks, and as many of them agree. So the same trees are built, which
do not know the numbers of their rules.
-/

namespace Stencil

/-! ## Items -/

def Action.renumber (numbering : Nat → Nat) : Action → Action
  | shift => shift
  | reduce index rule => reduce (numbering index) rule
  | accept index rule => accept (numbering index) rule

def Item.renumber (numbering : Nat → Nat) (item : Item) : Item :=
  { item with index := numbering item.index, action := item.action.renumber numbering }

theorem Item.ofRule?_renumber (surroundings : Grammar.Surroundings) (numbering : Nat → Nat)
    (index : Nat) (rule : Rule) (position : Nat) :
    ofRule? surroundings (numbering index) rule position =
      (ofRule? surroundings index rule position).map (renumber numbering) := by
  unfold ofRule?
  cases rule.stackOrder.drop position with
  | nil => rfl
  | cons focus below =>
      cases position with
      | zero =>
          dsimp only
          split <;> rfl
      | succ later => rfl

def behindFirst (numbering : Nat → Nat) : Nat → Nat
  | 0 => 0
  | index + 1 => numbering index + 1

def swapFirst : Nat → Nat
  | 0 => 1
  | 1 => 0
  | index + 2 => index + 2

theorem exists_numbering {rules others : List Rule} (reordered : rules.Perm others) :
    ∃ numbering, others.zipIdx.Perm (rules.zipIdx.map (Prod.map id numbering)) := by
  induction reordered with
  | nil => exact ⟨id, .nil⟩
  | @cons rule rules others _ induction =>
      rcases induction with ⟨numbering, matched⟩
      refine ⟨behindFirst numbering, ?_⟩
      rw [List.zipIdx_cons', List.zipIdx_cons', List.map_cons, List.map_map]
      apply List.Perm.cons
      have shifted := matched.map (Prod.map id (· + 1))
      rwa [List.map_map] at shifted
  | swap first second later =>
      refine ⟨swapFirst, ?_⟩
      simp only [List.zipIdx_cons', List.map_cons, List.map_map]
      exact .swap _ _ _
  | trans _ _ lower upper =>
      rcases lower with ⟨inner, first⟩
      rcases upper with ⟨outer, second⟩
      refine ⟨outer ∘ inner, second.trans ?_⟩
      have mapped := first.map (Prod.map id outer)
      rwa [List.map_map] at mapped

namespace Table

open Stencil.Parser

/-- The items of every symbol are those of another table, with other numbers and maybe in another
order. -/
def Renumbered (numbering : Nat → Nat) (table other : Table) : Prop :=
  ∀ symbol, (other.items.get symbol).Perm
    ((table.items.get symbol).map (Item.renumber numbering))

theorem exists_renumbered {grammar other : Grammar} (reordered : grammar.rules.Perm other.rules)
    (surroundings : other.surroundings = grammar.surroundings) :
    ∃ numbering, Renumbered numbering (ofGrammar grammar) (ofGrammar other) := by
  rcases exists_numbering reordered with ⟨numbering, matched⟩
  refine ⟨numbering, ?_⟩
  intro symbol
  simp only [ofGrammar, PerSymbol.get_ofFn, surroundings, itemsOf]
  refine (matched.flatMap_right _).trans ?_
  rw [List.flatMap_map, List.map_flatMap]
  apply List.Perm.of_eq
  congr 1
  funext numbered
  rcases numbered with ⟨rule, index⟩
  rw [List.map_filterMap]
  congr 1
  funext position
  exact Item.ofRule?_renumber _ _ _ _ _

/-! ## Decisions -/

theorem decideAlone_renumber (numbering : Nat → Nat) (item : Item)
    (lookahead below : Option Symbol) :
    decideAlone (item.renumber numbering) lookahead below =
      (decideAlone item lookahead below).map (Action.renumber numbering) := by
  have same : (item.renumber numbering).lookaheads = item.lookaheads := rfl
  cases next : item.lookaheads.contains lookahead with
  | false =>
      rw [decideAlone_of_not_contains next]
      rw [← same] at next
      exact decideAlone_of_not_contains next below
  | true =>
      rw [decideAlone_of_contains next]
      rw [← same] at next
      rw [decideAlone_of_contains next]
      change (if item.endsAt 0 && !item.mayStartAbove below then _ else _) = _
      split <;> rfl

variable {numbering : Nat → Nat} {table other : Table}

theorem decide_renumber (renumbered : Renumbered numbering table other) {top : Token}
    {below : List Token} {lookahead : Option Symbol} {action : Action}
    (decided : (table.decide ⟨top :: below, []⟩ lookahead).1 = .ok action) :
    (other.decide ⟨top :: below, []⟩ lookahead).1 = .ok (action.renumber numbering) := by
  have listed := renumbered top.kind
  match items : table.items.get top.kind with
  | [] =>
      rcases exists_of_decide_eq_ok decided with ⟨item, member, _⟩
      rw [items] at member
      cases member
  | [only] =>
      rw [items, List.map_singleton, List.perm_singleton] at listed
      rw [decide_of_single items] at decided
      rw [decide_of_single listed, decideAlone_renumber, decided]
      rfl
  | first :: second :: more =>
      rw [decide_of_several items] at decided
      rcases exists_of_conclude_eq_ok decided with ⟨item, found, rfl⟩
      rcases mem_findingsAmong.mp found with ⟨member, fits⟩
      have renamed : item.renumber numbering ∈ other.items.get top.kind :=
        listed.mem_iff.mpr (List.mem_map_of_mem member)
      apply decide_eq_ok_of_fits renamed fits
      intro rival rivalMember rivalFits
      rcases List.mem_map.mp (listed.mem_iff.mp rivalMember) with ⟨original, originalMember, rfl⟩
      have originalFound := mem_findingsAmong.mpr ⟨originalMember, rivalFits⟩
      exact congrArg (Action.renumber numbering) (action_of_conclude_eq_ok decided originalFound)

/-! ## Runs -/

theorem decision_renumber (renumbered : Renumbered numbering table other) {state : State}
    {action : Action} (decided : state.decision table.parser = .ok action) :
    state.decision other.parser = .ok (action.renumber numbering) := by
  match state with
  | ⟨[], input⟩ => cases decided
  | ⟨top :: below, input⟩ =>
      rw [decision_cons] at decided ⊢
      exact decide_renumber renumbered decided

end Table

open Stencil.Parser in
theorem Parser.State.Reduces.renumber {index : Nat} {rule : Rule} {state next : State}
    (reduces : state.Reduces index rule next) (number : Nat) :
    ∃ alike, state.Reduces number rule alike ∧ alike.configuration = next.configuration := by
  cases reduces with
  | apply kinds below input => exact ⟨_, .apply kinds below input, rfl⟩

namespace Table

open Stencil.Parser

variable {numbering : Nat → Nat} {table other : Table} {state next : State}

theorem exists_moves_renumber (renumbered : Renumbered numbering table other)
    (moves : Moves table.parser state next) :
    ∃ alike, Moves other.parser state alike ∧ alike.configuration = next.configuration := by
  cases moves with
  | shift decided => exact ⟨_, .shift (decision_renumber renumbered decided), rfl⟩
  | @reduce index rule state next decided reduces =>
      rcases reduces.renumber (numbering index) with ⟨alike, reduces, same⟩
      exact ⟨alike, .reduce (decision_renumber renumbered decided) reduces, same⟩

theorem exists_accepts_renumber (renumbered : Renumbered numbering table other)
    (accepts : Accepts table.parser state next) :
    ∃ alike, Accepts other.parser state alike ∧ alike.configuration = next.configuration := by
  cases accepts with
  | @accept index rule state next decided reduces =>
      rcases reduces.renumber (numbering index) with ⟨alike, reduces, same⟩
      exact ⟨alike, .accept (decision_renumber renumbered decided) reduces, same⟩

theorem value_run_renumber (renumbered : Renumbered numbering table other)
    (nonempty : state.stack ≠ []) {bound : Nat} {earlier : List Event} {final : Configuration}
    (accepted : (table.parser.run bound state.configuration earlier).value = .ok final)
    (before : List Event) :
    (other.parser.run bound state.configuration before).value = .ok final := by
  induction bound generalizing state earlier before with
  | zero => cases accepted
  | succ fewer induction =>
      have leads := leads_step (restores table) nonempty
      rw [value_run] at accepted ⊢
      generalize (table.parser.step state.configuration).value = outcome at leads accepted
      cases leads with
      | failed fails => cases accepted
      | accepted accepts =>
          rcases exists_accepts_renumber renumbered accepts with ⟨alike, accepts, same⟩
          rw [(Leads.accepted accepts).value_step (restores other), same]
          exact accepted
      | next moves =>
          rcases exists_moves_renumber renumbered moves with ⟨alike, likewise, same⟩
          rw [(Leads.next likewise).value_step (restores other), same]
          exact induction moves.stack_ne_nil accepted _

theorem parse_renumber (renumbered : Renumbered numbering table other)
    (start : other.grammar.start = table.grammar.start) {trailing : TrailingPolicy}
    {tokens : List Token} {tree : Token}
    (parsed : (table.parse trailing tokens).value = .ok tree) :
    (other.parse trailing tokens).value = .ok tree := by
  match tokens with
  | [] => cases parsed
  | first :: rest =>
      rw [parse, value_parse] at parsed ⊢
      cases ran : (table.parser.run (stepBound (first :: rest))
          (State.initial first rest).configuration []).value with
      | error error =>
          rw [ran] at parsed
          cases parsed
      | ok final =>
          rw [ran] at parsed
          rw [value_run_renumber renumbered (State.initial_stack_ne_nil first rest) ran []]
          rcases finish_eq_ok_iff.mp parsed with ⟨single, kind, allowed⟩
          exact finish_eq_ok_iff.mpr ⟨single, kind.trans start.symm, allowed⟩

/-- The order of the rules does not matter. As long as the start symbol stays the same, rules that
pass the checks pass them in every order, have the same sets, and build the same trees from the same
tokens. -/
theorem parse_perm {rules others : List Rule} {grammar : Grammar}
    (accepted : Grammar.ofRules rules = .ok grammar) (reordered : rules.Perm others)
    (start : (others.find? Rule.completesParse).map Rule.lhs =
      (rules.find? Rule.completesParse).map Rule.lhs) :
    ∃ other, Grammar.ofRules others = .ok other ∧ other.start = grammar.start ∧
      other.surroundings = grammar.surroundings ∧
      ∀ trailing tokens tree, ((ofGrammar other).parse trailing tokens).value = .ok tree ↔
        ((ofGrammar grammar).parse trailing tokens).value = .ok tree := by
  rcases Grammar.exists_ofRules_perm accepted reordered start with
    ⟨other, likewise, sameStart, same⟩
  rcases Grammar.ofRules_eq_ok_iff.mp accepted with rfl
  rcases Grammar.ofRules_eq_ok_iff.mp likewise with rfl
  rcases exists_renumbered reordered same with ⟨_, forward⟩
  rcases exists_renumbered reordered.symm same.symm with ⟨_, backward⟩
  refine ⟨other, likewise, sameStart, same, ?_⟩
  intro trailing tokens tree
  constructor
  · exact parse_renumber backward sameStart.symm
  · exact parse_renumber forward sameStart

theorem parse_perm_reverse :
    Template.rules.Perm Template.rules.reverse ∧
    ∃ other tree, Grammar.ofRules Template.rules.reverse = .ok other ∧
      other.start = .source ∧ other.surroundings = Template.grammar.surroundings ∧
      ((ofGrammar Template.grammar).parse .warn trailedTokens).value = .ok tree ∧
      ((ofGrammar other).parse .warn trailedTokens).value = .ok tree := by
  have accepted : Grammar.ofRules Template.rules = .ok Template.grammar :=
    Template.grammar.ofRules_rules
  have reordered : Template.rules.Perm Template.rules.reverse := Template.rules.reverse_perm.symm
  have done : ((ofGrammar Template.grammar).parse .warn trailedTokens).value.isOk = true := by
    decide +kernel
  obtain ⟨other, likewise, start, same, agree⟩ := parse_perm accepted reordered (by decide)
  rcases Attempt.exists_of_isOk done with ⟨tree, parsed⟩
  exact ⟨reordered, other, tree, likewise, start, same, parsed, (agree _ _ _).mpr parsed⟩

end Table

end Stencil
