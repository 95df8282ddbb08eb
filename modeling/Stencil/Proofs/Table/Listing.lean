import Stencil.Proofs.Grammar.Checks
import Stencil.Proofs.Table.Items

/-! # Every place of every rule, once

A table lists its items symbol by symbol. Under each symbol they come by the numbers of their rules,
and those of one rule from its last symbol to its first. So no place is listed twice under one
symbol, and as a place has only one symbol, it is not listed under two symbols either.
-/

namespace Stencil

/-! ## Places in order -/

theorem pairwise_zipIdx {α : Type} (elements : List α) :
    elements.zipIdx.Pairwise fun earlier later => earlier.2 < later.2 := by
  rw [← List.pairwise_map (f := Prod.snd), List.zipIdx_map_snd]
  exact List.pairwise_lt_range' 1

theorem Rule.pairwise_positionsOf (rule : Rule) (symbol : Symbol) :
    (rule.positionsOf symbol).Pairwise (· < ·) :=
  List.pairwise_map.mpr ((pairwise_zipIdx rule.stackOrder).filter _)

namespace Item

/-- The item stands for one place of one rule, and asks for the action of that place. -/
structure StandsFor (item : Item) (index : Nat) (rule : Rule) (position : Nat) (focus : Symbol) :
    Prop where
  index_eq : item.index = index
  rule_eq : item.rule = rule
  position_eq : item.position = position
  focus_eq : item.focus = focus
  shift_iff : item.action = .shift ↔ 0 < position
  accept_iff : item.action = .accept index rule ↔ position = 0 ∧ focus = .endOfInput
  reduce_iff : item.action = .reduce index rule ↔ position = 0 ∧ focus ≠ .endOfInput

/-- The item comes in front of another one: by the number of its rule, or by its place in the same
rule. -/
def Earlier (item other : Item) : Prop :=
  item.index < other.index ∨ item.index = other.index ∧ item.position < other.position

theorem Earlier.ne {item other : Item} (earlier : item.Earlier other) :
    ¬(item.index = other.index ∧ item.position = other.position) := by
  rintro ⟨index, position⟩
  rcases earlier with lower | ⟨_, lower⟩ <;> omega

variable {surroundings : Grammar.Surroundings} {index : Nat} {rule : Rule} {position : Nat}
  {before : List Symbol} {focus : Symbol} {after : List Symbol} {item : Item}

theorem standsFor_atPlace :
    (atPlace surroundings index rule before focus after).StandsFor index rule after.length
      focus := by
  cases after with
  | nil => by_cases ending : focus = .endOfInput <;> constructor <;> simp [atPlace, ending]
  | cons next later => constructor <;> simp [atPlace]

theorem standsFor_of_ofRule? (made : ofRule? surroundings index rule position = some item) :
    ∃ focus, rule.atPosition? position = some focus ∧ item.StandsFor index rule position focus := by
  rcases exists_split_of_ofRule? made with ⟨before, focus, after, split, rfl, rfl⟩
  exact ⟨focus, atPosition?_of_split split, standsFor_atPlace⟩

theorem place_of_ofRule? (made : ofRule? surroundings index rule position = some item) :
    item.index = index ∧ item.position = position := by
  rcases standsFor_of_ofRule? made with ⟨_, _, stands⟩
  exact ⟨stands.index_eq, stands.position_eq⟩

theorem ofRule?_eq_none_iff :
    ofRule? surroundings index rule position = none ↔ rule.length ≤ position := by
  rw [← Rule.length_stackOrder, ← List.drop_eq_nil_iff]
  unfold ofRule?
  cases rule.stackOrder.drop position <;> simp

theorem exists_ofRule? (surroundings : Grammar.Surroundings) (index : Nat)
    (inside : position < rule.length) :
    ∃ item, ofRule? surroundings index rule position = some item := by
  apply Option.ne_none_iff_exists'.mp
  exact fun none => Nat.not_le_of_lt inside (ofRule?_eq_none_iff.mp none)

theorem filter_eq_singleton {items : List Item} (ordered : items.Pairwise Earlier)
    (member : item ∈ items) :
    items.filter (fun other => other.index = item.index ∧ other.position = item.position) =
      [item] := by
  rcases List.append_of_mem member with ⟨front, behind, rfl⟩
  rcases List.pairwise_append.mp ordered with ⟨_, rest, across⟩
  have before : ∀ other ∈ front, ¬(other.index = item.index ∧ other.position = item.position) :=
    fun other among => (across other among item List.mem_cons_self).ne
  have after : ∀ other ∈ behind, ¬(other.index = item.index ∧ other.position = item.position) :=
    fun other among same =>
      ((List.pairwise_cons.mp rest).1 other among).ne ⟨same.1.symm, same.2.symm⟩
  rw [List.filter_append, List.filter_cons_of_pos (by simp),
    List.filter_eq_nil_iff.mpr (by simpa using before),
    List.filter_eq_nil_iff.mpr (by simpa using after), List.nil_append]

end Item

namespace Table

variable {grammar : Grammar} {symbol : Symbol} {item : Item}

theorem pairwise_items (grammar : Grammar) (symbol : Symbol) :
    ((ofGrammar grammar).items.get symbol).Pairwise Item.Earlier := by
  simp only [ofGrammar, PerSymbol.get_ofFn, itemsOf, List.pairwise_flatMap]
  -- Of one rule the places come in order, and of different rules their numbers do.
  constructor
  · rintro ⟨rule, index⟩ _
    apply List.pairwise_filterMap.mpr
    apply (rule.pairwise_positionsOf symbol).imp
    intro position later before item made other otherMade
    rcases Item.place_of_ofRule? made with ⟨rfl, rfl⟩
    rcases Item.place_of_ofRule? otherMade with ⟨same, rfl⟩
    exact .inr ⟨same.symm, before⟩
  · apply (pairwise_zipIdx grammar.rules).imp
    intro numbered otherNumbered before item listed other otherListed
    rcases List.mem_filterMap.mp listed with ⟨_, _, made⟩
    rcases List.mem_filterMap.mp otherListed with ⟨_, _, otherMade⟩
    left
    rwa [(Item.place_of_ofRule? made).1, (Item.place_of_ofRule? otherMade).1]

theorem standsFor_of_mem_items (member : item ∈ (ofGrammar grammar).items.get symbol) :
    grammar.rules[item.index]? = some item.rule ∧
      item.rule.atPosition? item.position = some symbol ∧
      item.StandsFor item.index item.rule item.position symbol := by
  rcases mem_items_iff.mp member with ⟨index, rule, before, after, numbered, split, rfl⟩
  have stands : (Item.atPlace grammar.surroundings index rule before symbol after).StandsFor index
      rule after.length symbol :=
    Item.standsFor_atPlace
  rw [stands.index_eq, stands.rule_eq, stands.position_eq]
  exact ⟨numbered, Item.atPosition?_of_split split, stands⟩

theorem mem_items_of_ofRule? {index position : Nat} {rule : Rule}
    (numbered : grammar.rules[index]? = some rule)
    (focused : rule.atPosition? position = some symbol)
    (made : Item.ofRule? grammar.surroundings index rule position = some item) :
    item ∈ (ofGrammar grammar).items.get symbol := by
  rcases Item.exists_split_of_ofRule? made with ⟨before, focus, after, split, rfl, rfl⟩
  rcases Option.some.inj ((Item.atPosition?_of_split split).symm.trans focused) with rfl
  exact mem_items_iff.mpr ⟨index, rule, before, after, numbered, split, rfl⟩

theorem filter_items {index position : Nat} {rule : Rule} {focus : Symbol}
    (numbered : grammar.rules[index]? = some rule)
    (focused : rule.atPosition? position = some focus)
    (made : Item.ofRule? grammar.surroundings index rule position = some item) (symbol : Symbol) :
    ((ofGrammar grammar).items.get symbol).filter
        (fun other => other.index = index ∧ other.position = position) =
      if symbol = focus then [item] else [] := by
  by_cases own : symbol = focus
  · subst own
    have member := mem_items_of_ofRule? numbered focused made
    rcases Item.place_of_ofRule? made with ⟨rfl, rfl⟩
    rw [if_pos rfl]
    exact Item.filter_eq_singleton (pairwise_items grammar symbol) member
  · rw [if_neg own, List.filter_eq_nil_iff]
    intro other member same
    rw [decide_eq_true_eq] at same
    rcases standsFor_of_mem_items member with ⟨otherNumbered, otherFocused, _⟩
    rw [same.1, numbered] at otherNumbered
    rw [same.2, ← Option.some.inj otherNumbered, focused] at otherFocused
    exact own (Option.some.inj otherFocused).symm

/-- A table misses nothing and repeats nothing. Each place of each rule has an item, which is listed
once, under the symbol at that place, and under no other symbol. The items of a symbol come by the
numbers of their rules and then by their places, and there are no others. An item asks for a shift
unless it stands for the last symbol of its rule; then it asks for a reduction, which ends the parse
if that symbol is the end of the input. Only what is no place of a rule has no item. -/
theorem items_exactly_once {rules : List Rule} {grammar : Grammar}
    (accepted : Grammar.ofRules rules = .ok grammar) :
    (∀ index rule position, rules[index]? = some rule → position < rule.length →
      ∃ item focus, Item.ofRule? grammar.surroundings index rule position = some item ∧
        rule.atPosition? position = some focus ∧ item.StandsFor index rule position focus ∧
        ∀ symbol, ((ofGrammar grammar).items.get symbol).filter
            (fun other => other.index = index ∧ other.position = position) =
          if symbol = focus then [item] else []) ∧
    (∀ symbol, ((ofGrammar grammar).items.get symbol).Pairwise Item.Earlier ∧
      ∀ item ∈ (ofGrammar grammar).items.get symbol,
        rules[item.index]? = some item.rule ∧
        item.rule.atPosition? item.position = some symbol ∧
        item.StandsFor item.index item.rule item.position symbol) ∧
    ∀ index rule position,
      Item.ofRule? grammar.surroundings index rule position = none ↔ rule.length ≤ position := by
  rcases Grammar.ofRules_eq_ok_iff.mp accepted with rfl
  refine ⟨?_, ?_, fun _ _ _ => Item.ofRule?_eq_none_iff⟩
  · intro index rule position numbered inside
    rcases Item.exists_ofRule? grammar.surroundings index inside with ⟨item, made⟩
    rcases Item.standsFor_of_ofRule? made with ⟨focus, focused, stands⟩
    exact ⟨item, focus, made, focused, stands, filter_items numbered focused made⟩
  · intro symbol
    exact ⟨pairwise_items grammar symbol, fun _ => standsFor_of_mem_items⟩

/-- Rules in which a symbol comes twice, and one of which comes twice itself. -/
def doubledRules : List Rule :=
  [{ lhs := .source, rhs := [.elements, .blank, .endOfInput] },
   { lhs := .elements, rhs := [.text, .blank, .text] },
   { lhs := .elements, rhs := [.text, .blank, .text] }]

def doubled : Grammar where
  rules := doubledRules
  start := .source
  start_eq := by decide
  defined := by decide
  acyclic := by decide +kernel

theorem items_exactly_once_doubled :
    Grammar.ofRules doubledRules = .ok doubled ∧
    (∃ rule, doubledRules[2]? = some rule ∧ 2 < rule.length) ∧
    ((ofGrammar doubled).items.get .text).map (fun item => (item.index, item.position)) =
      [(1, 0), (1, 2), (2, 0), (2, 2)] ∧
    ∃ item, item.action = .shift ∧
      ((ofGrammar doubled).items.get .text).filter
        (fun other => other.index = 2 ∧ other.position = 2) = [item] := by
  have accepted : Grammar.ofRules doubledRules = .ok doubled := doubled.ofRules_rules
  rcases (items_exactly_once accepted).1 2 _ 2 rfl (by decide) with
    ⟨item, focus, _, focused, stands, listed⟩
  rcases Option.some.inj focused with rfl
  exact ⟨accepted, ⟨_, rfl, by decide⟩, by decide +kernel, item,
    stands.shift_iff.mpr (by decide), listed .text⟩

end Table

end Stencil
