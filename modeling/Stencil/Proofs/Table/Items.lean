import Stencil.Table.Basic

/-! # The items of a table

Every way to split a right-hand side around one of its symbols is listed in the table of a grammar
as an item of that symbol, and nothing else is.
-/

namespace Stencil

namespace Item

/-- The item for a symbol of a rule, given the symbols in front of it and those behind it, both in
reading order. -/
def atPlace (surroundings : Grammar.Surroundings) (index : Nat) (rule : Rule)
    (before : List Symbol) (focus : Symbol) : List Symbol → Item
  | [] =>
    { index, rule, position := 0, focus, below := before.reverse,
      action := if focus = .endOfInput then .accept index rule else .reduce index rule
      lookaheads := surroundings.follow.get rule.lhs
      preceding := surroundings.precede.get rule.lhs }
  | next :: later =>
    { index, rule, position := later.length + 1, focus, below := before.reverse,
      action := .shift
      lookaheads := surroundings.first.get next
      preceding := surroundings.precede.get rule.lhs }

variable {surroundings : Grammar.Surroundings} {index : Nat} {rule : Rule}
  {before : List Symbol} {focus : Symbol} {after : List Symbol}

theorem expected_atPlace :
    (atPlace surroundings index rule before focus after).expected = focus :: before.reverse := by
  cases after <;> rfl

theorem preceding_atPlace :
    (atPlace surroundings index rule before focus after).preceding =
      surroundings.precede.get rule.lhs := by
  cases after <;> rfl

theorem stackOrder_of_split (split : rule.rhs = before ++ focus :: after) :
    rule.stackOrder = after.reverse ++ focus :: before.reverse := by
  simp [Rule.stackOrder, split]

theorem atPosition?_of_split (split : rule.rhs = before ++ focus :: after) :
    rule.atPosition? after.length = some focus := by
  rw [Rule.atPosition?, stackOrder_of_split split]
  simp

theorem ofRule?_length (surroundings : Grammar.Surroundings) (index : Nat)
    (split : rule.rhs = before ++ focus :: after) :
    ofRule? surroundings index rule after.length =
      some (atPlace surroundings index rule before focus after) := by
  have order := stackOrder_of_split split
  have dropped : rule.stackOrder.drop after.length = focus :: before.reverse := by
    rw [order]
    exact List.drop_left' (by simp)
  cases after with
  | nil =>
      simp only [ofRule?, dropped]
      rfl
  | cons next later =>
      have behind : rule.atPosition? later.length = some next := by
        rw [Rule.atPosition?, order]
        simp
      rw [List.length_cons] at dropped
      simp only [ofRule?, dropped, List.length_cons, behind]
      rfl

theorem exists_split_of_ofRule? {position : Nat} {item : Item}
    (found : ofRule? surroundings index rule position = some item) :
    ∃ before focus after, rule.rhs = before ++ focus :: after ∧ after.length = position ∧
      item = atPlace surroundings index rule before focus after := by
  cases dropped : rule.stackOrder.drop position with
  | nil =>
      simp [ofRule?, dropped] at found
  | cons focus below =>
      have inside : position ≤ rule.stackOrder.length := by
        apply Nat.le_of_not_lt
        intro outside
        rw [List.drop_eq_nil_of_le (Nat.le_of_lt outside)] at dropped
        cases dropped
      obtain ⟨above, order, place⟩ : ∃ above,
          above ++ focus :: below = rule.stackOrder ∧ above.length = position :=
        ⟨rule.stackOrder.take position, by rw [← dropped, List.take_append_drop],
          List.length_take_of_le inside⟩
      have split : rule.rhs = below.reverse ++ focus :: above.reverse := by
        apply List.reverse_inj.mp
        rw [← Rule.stackOrder, ← order]
        simp
      refine ⟨_, _, _, split, by simpa using place, ?_⟩
      have same := ofRule?_length surroundings index split
      rw [List.length_reverse, place, found] at same
      exact Option.some.inj same

end Item

namespace Table

theorem mem_items_iff {grammar : Grammar} {focus : Symbol} {item : Item} :
    item ∈ (ofGrammar grammar).items.get focus ↔
      ∃ index rule before after, grammar.rules[index]? = some rule ∧
        rule.rhs = before ++ focus :: after ∧
        item = Item.atPlace grammar.surroundings index rule before focus after := by
  simp only [ofGrammar, PerSymbol.get_ofFn, itemsOf, List.mem_flatMap, List.mem_filterMap,
    List.mem_zipIdx_iff_getElem?, Rule.mem_positionsOf]
  constructor
  · intro listed
    rcases listed with ⟨⟨rule, index⟩, numbered, position, focused, found⟩
    rcases Item.exists_split_of_ofRule? found with ⟨before, own, after, split, rfl, rfl⟩
    rcases Option.some.inj ((Item.atPosition?_of_split split).symm.trans focused) with rfl
    exact ⟨index, rule, before, after, numbered, split, rfl⟩
  · intro placed
    rcases placed with ⟨index, rule, before, after, numbered, split, rfl⟩
    exact ⟨(rule, index), numbered, after.length, Item.atPosition?_of_split split,
      Item.ofRule?_length _ index split⟩

end Table

end Stencil
