import Mathlib.Logic.Relation
import Stencil.Grammar.UnitRules

/-! # Cycles of unit rules

A search finds a phrase exactly if a chain of unit rules leads there, so a symbol finds itself
exactly if it lies on a cycle. No phrase is followed twice. Therefore the search ends, however the
rules lead into one another, and the number of rules bounds the number of its passes.
-/

namespace Stencil

theorem Symbol.find?_all_eq_some_iff {wanted : Symbol → Bool} {symbol : Symbol} :
    all.find? wanted = some symbol ↔
      wanted symbol = true ∧ ∀ other, wanted other = true → symbol.index ≤ other.index := by
  have sorted : all.Pairwise (·.index < ·.index) := by decide
  have smallest : ∀ {found}, all.find? wanted = some found →
      ∀ other, wanted other = true → found.index ≤ other.index := by
    intro found isFound other also
    rcases List.find?_eq_some_iff_append.mp isFound with ⟨-, before, after, split, unwanted⟩
    rw [split, List.pairwise_append, List.pairwise_cons] at sorted
    have member := other.mem_all
    rw [split, List.mem_append, List.mem_cons] at member
    rcases member with front | rfl | back
    · exact absurd also (by simpa using unwanted other front)
    · exact Nat.le_refl _
    · exact Nat.le_of_lt (sorted.2.1.1 other back)
  constructor
  · exact fun isFound => ⟨List.find?_some isFound, smallest isFound⟩
  · rintro ⟨isWanted, least⟩
    cases isFound : all.find? wanted with
    | none => exact absurd isWanted (List.find?_eq_none.mp isFound symbol symbol.mem_all)
    | some found =>
        have same := Nat.le_antisymm (smallest isFound symbol isWanted)
          (least found (List.find?_some isFound))
        rw [index_inj same]

namespace UnitRules

open Relation

variable {rules : List Rule} {goal symbol phrase : Symbol} {seen : SymbolSet}
variable {pending : List Symbol}

/-- A symbol is built from a phrase by a unit rule. -/
def Leads (rules : List Rule) (symbol phrase : Symbol) : Prop :=
  ∃ rule ∈ rules, rule.lhs = symbol ∧ rule.rhs = [phrase] ∧ phrase.isTerminal = false

theorem target?_eq_some_iff {rule : Rule} :
    target? rule = some phrase ↔ rule.rhs = [phrase] ∧ phrase.isTerminal = false := by
  unfold target?
  split
  · rename_i only single
    rw [single, List.cons.injEq]
    split <;> rename_i terminal
    · refine iff_of_false nofun ?_
      rintro ⟨⟨rfl, -⟩, phrase⟩
      rw [phrase] at terminal
      cases terminal
    · rw [Option.some.injEq]
      constructor
      · rintro rfl
        exact ⟨⟨rfl, rfl⟩, Bool.eq_false_iff.mpr terminal⟩
      · exact fun same => same.1.1
  · rename_i several
    exact iff_of_false nofun fun single => several phrase single.1

theorem mem_targets_iff : phrase ∈ targets rules symbol ↔ Leads rules symbol phrase := by
  simp only [targets, List.mem_filterMap, Option.ite_none_right_eq_some, target?_eq_some_iff]
  exact Iff.rfl

/-! ## What the search answers -/

theorem exists_of_leadsTo (found : leadsTo rules goal seen pending = true) :
    ∃ phrase ∈ pending, ReflTransGen (Leads rules) phrase goal := by
  fun_induction leadsTo rules goal seen pending with
  | case1 => cases found
  | case2 => exact ⟨goal, List.mem_cons_self, .refl⟩
  | case3 seen symbol later away known induction =>
      rcases induction found with ⟨phrase, member, chain⟩
      exact ⟨phrase, List.mem_cons_of_mem symbol member, chain⟩
  | case4 seen symbol later away fresh induction =>
      rcases induction found with ⟨phrase, member, chain⟩
      rcases List.mem_append.mp member with here | there
      · have leads := mem_targets_iff.mp (List.mem_reverse.mp here)
        exact ⟨symbol, List.mem_cons_self, .head leads chain⟩
      · exact ⟨phrase, List.mem_cons_of_mem symbol there, chain⟩

/-- What has been seen is not the goal, and all that it leads to has been seen or is pending. -/
def Explored (rules : List Rule) (goal : Symbol) (seen : SymbolSet) (pending : List Symbol) : Prop :=
  ∀ symbol, seen.contains (some symbol) = true → symbol ≠ goal ∧
    ∀ phrase, Leads rules symbol phrase → seen.contains (some phrase) = true ∨ phrase ∈ pending

theorem explored_empty (rules : List Rule) (goal : Symbol) (pending : List Symbol) :
    Explored rules goal .empty pending := by
  intro symbol held
  simp at held

theorem Explored.skip {later : List Symbol} (explored : Explored rules goal seen (symbol :: later))
    (known : seen.contains (some symbol) = true) : Explored rules goal seen later := by
  intro other held
  refine ⟨(explored other held).1, fun phrase leads => ?_⟩
  rcases (explored other held).2 phrase leads with before | next
  · exact .inl before
  · rcases List.mem_cons.mp next with rfl | behind
    · exact .inl known
    · exact .inr behind

theorem Explored.follow {later : List Symbol}
    (explored : Explored rules goal seen (symbol :: later)) (away : symbol ≠ goal) :
    Explored rules goal (seen.insert symbol) ((targets rules symbol).reverse ++ later) := by
  intro other held
  simp only [SymbolSet.contains_insert, Bool.or_eq_true, decide_eq_true_eq, Option.some.injEq,
    List.mem_append, List.mem_reverse, mem_targets_iff] at held ⊢
  rcases held with rfl | before
  · exact ⟨away, fun phrase leads => .inr (.inl leads)⟩
  · refine ⟨(explored other before).1, fun phrase leads => ?_⟩
    rcases (explored other before).2 phrase leads with held | next
    · exact .inl (.inr held)
    · rcases List.mem_cons.mp next with rfl | behind
      · exact .inl (.inl rfl)
      · exact .inr (.inr behind)

theorem Explored.closed (explored : Explored rules goal seen [])
    (held : seen.contains (some symbol) = true) (chain : ReflTransGen (Leads rules) symbol phrase) :
    seen.contains (some phrase) = true := by
  induction chain with
  | refl => exact held
  | tail _ leads induction => exact ((explored _ induction).2 _ leads).resolve_right nofun

theorem not_of_leadsTo (explored : Explored rules goal seen pending)
    (failed : leadsTo rules goal seen pending = false) :
    ∀ phrase, seen.contains (some phrase) = true ∨ phrase ∈ pending →
      ¬ReflTransGen (Leads rules) phrase goal := by
  fun_induction leadsTo rules goal seen pending with
  | case1 seen =>
      intro phrase held chain
      have reached := explored.closed (held.resolve_right nofun) chain
      exact (explored goal reached).1 rfl
  | case2 => cases failed
  | case3 seen symbol later away known induction =>
      intro phrase held
      apply induction (explored.skip known) failed
      rcases held with before | next
      · exact .inl before
      · rcases List.mem_cons.mp next with rfl | behind
        · exact .inl known
        · exact .inr behind
  | case4 seen symbol later away fresh induction =>
      intro phrase held
      apply induction (explored.follow away) failed
      rw [SymbolSet.contains_insert, Bool.or_eq_true, decide_eq_true_eq, Option.some.injEq]
      rcases held with before | next
      · exact .inl (.inr before)
      · rcases List.mem_cons.mp next with rfl | behind
        · exact .inl (.inl rfl)
        · exact .inr (List.mem_append_right _ behind)

theorem reaches_iff :
    reaches rules symbol phrase = true ↔ TransGen (Leads rules) symbol phrase := by
  rw [reaches, TransGen.head'_iff]
  constructor
  · intro found
    rcases exists_of_leadsTo found with ⟨next, member, chain⟩
    exact ⟨next, mem_targets_iff.mp (List.mem_reverse.mp member), chain⟩
  · rintro ⟨next, leads, chain⟩
    apply Bool.of_not_eq_false
    intro failed
    have member : next ∈ (targets rules symbol).reverse :=
      List.mem_reverse.mpr (mem_targets_iff.mpr leads)
    exact not_of_leadsTo (explored_empty rules phrase _) failed next (.inr member) chain

theorem firstCyclic?_eq_none_iff :
    firstCyclic? rules = none ↔ ∀ symbol, ¬TransGen (Leads rules) symbol symbol := by
  simp only [firstCyclic?, List.find?_eq_none, reaches_iff, Symbol.mem_all, forall_const]

theorem firstCyclic?_eq_some_iff :
    firstCyclic? rules = some symbol ↔ TransGen (Leads rules) symbol symbol ∧
      ∀ other, TransGen (Leads rules) other other → symbol.index ≤ other.index := by
  simp only [firstCyclic?, Symbol.find?_all_eq_some_iff, reaches_iff]

/-- A row of elements leads into the cycle, but it is not part of it. -/
example : firstCyclic? [{ lhs := .elements, rhs := [.element] },
    { lhs := .element, rhs := [.blanks] }, { lhs := .blanks, rhs := [.element] }] =
      some .element := by
  decide +kernel

/-! ## The loop -/

/-- The loop of the search, with the number of its passes and its answer. A pass takes the foremost
pending phrase. -/
inductive Searches (rules : List Rule) (goal : Symbol) :
    SymbolSet → List Symbol → Nat → Bool → Prop
  | exhausted {seen : SymbolSet} : Searches rules goal seen [] 0 false
  | found {seen : SymbolSet} {later : List Symbol} :
      Searches rules goal seen (goal :: later) 1 true
  | skip {seen : SymbolSet} {symbol : Symbol} {later : List Symbol} {passes : Nat} {answer : Bool}
      (away : symbol ≠ goal) (known : seen.contains (some symbol) = true)
      (searches : Searches rules goal seen later passes answer) :
      Searches rules goal seen (symbol :: later) (passes + 1) answer
  | follow {seen : SymbolSet} {symbol : Symbol} {later : List Symbol} {passes : Nat}
      {answer : Bool} (away : symbol ≠ goal) (fresh : seen.contains (some symbol) = false)
      (searches : Searches rules goal (seen.insert symbol)
        ((targets rules symbol).reverse ++ later) passes answer) :
      Searches rules goal seen (symbol :: later) (passes + 1) answer

theorem exists_searches (rules : List Rule) (goal : Symbol) (seen : SymbolSet)
    (pending : List Symbol) :
    ∃ passes ≤ pending.length + unfollowed rules seen,
      Searches rules goal seen pending passes (leadsTo rules goal seen pending) := by
  fun_induction leadsTo rules goal seen pending with
  | case1 seen => exact ⟨0, Nat.zero_le _, .exhausted⟩
  | case2 seen later => exact ⟨1, by simp only [List.length_cons]; omega, .found⟩
  | case3 seen symbol later away known induction =>
      rcases induction with ⟨passes, few, searches⟩
      refine ⟨passes + 1, ?_, .skip away known searches⟩
      rw [List.length_cons]
      omega
  | case4 seen symbol later away fresh induction =>
      rcases induction with ⟨passes, few, searches⟩
      have new := Bool.eq_false_iff.mpr fresh
      refine ⟨passes + 1, ?_, .follow away new searches⟩
      have followed := length_targets_add_unfollowed rules new
      rw [List.length_append, List.length_reverse] at few
      rw [List.length_cons]
      omega

/-- A search ends on every list of rules. No rule makes for more than two of its passes: one if it
is a rule for the symbol from which the search starts, and one when its left-hand side is seen. -/
theorem exists_searches_reaches (rules : List Rule) (symbol phrase : Symbol) :
    ∃ passes ≤ 2 * rules.length,
      Searches rules phrase .empty (targets rules symbol).reverse passes
        (reaches rules symbol phrase) := by
  rcases exists_searches rules phrase .empty (targets rules symbol).reverse with
    ⟨passes, few, searches⟩
  refine ⟨passes, ?_, searches⟩
  have own : (targets rules symbol).length ≤ rules.length := List.length_filterMap_le _ _
  have others : unfollowed rules .empty ≤ rules.length := List.countP_le_length
  rw [List.length_reverse] at few
  omega

end UnitRules

end Stencil
