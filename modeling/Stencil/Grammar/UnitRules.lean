import Stencil.Grammar.Rule
import Stencil.SymbolSet

/-!
# Chains of unit rules

A unit rule builds a phrase from a single phrase. Applying it uses up no input and leaves the stack
as high as it was, so a parse can only be sure to end if no phrase leads back to itself through
unit rules. From every symbol a search follows the unit rules and looks out for that symbol.
-/

namespace Stencil.UnitRules

/-- The phrase from which a unit rule builds its left-hand side; none if the rule has several
symbols or a terminal on its right-hand side. -/
def target? (rule : Rule) : Option Symbol :=
  match rule.rhs with
  | [symbol] => if symbol.isTerminal then none else some symbol
  | _ => none

def targets (rules : List Rule) (symbol : Symbol) : List Symbol :=
  rules.filterMap fun rule => if rule.lhs = symbol then target? rule else none

def unfollowed (rules : List Rule) (seen : SymbolSet) : Nat :=
  rules.countP fun rule => (target? rule).isSome && !seen.contains (some rule.lhs)

theorem length_targets_add_unfollowed (rules : List Rule) {seen : SymbolSet} {symbol : Symbol}
    (fresh : seen.contains (some symbol) = false) :
    (targets rules symbol).length + unfollowed rules (seen.insert symbol) =
      unfollowed rules seen := by
  induction rules with
  | nil => rfl
  | cons rule later induction =>
    simp only [targets, unfollowed, List.filterMap_cons, List.countP_cons] at induction ⊢
    by_cases own : rule.lhs = symbol
    · cases target : target? rule with
      | none => simpa [own] using induction
      | some phrase =>
        simp [own, fresh, SymbolSet.contains_insert] at induction ⊢
        omega
    · simp only [own, if_false, SymbolSet.contains_insert, Option.some.injEq, decide_false,
        Bool.false_or] at induction ⊢
      omega

/-- Whether unit rules lead from one of the pending phrases to the goal. The first pending phrase is
looked at first. If it has not been seen before, the phrases that it is built from come in front of
the others, the last one foremost. -/
def leadsTo (rules : List Rule) (goal : Symbol) (seen : SymbolSet) : List Symbol → Bool
  | [] => false
  | symbol :: later =>
    if symbol = goal then true
    else if _ : seen.contains (some symbol) then leadsTo rules goal seen later
    else leadsTo rules goal (seen.insert symbol) ((targets rules symbol).reverse ++ later)
termination_by pending => pending.length + unfollowed rules seen
decreasing_by
  · simp only [List.length_cons]
    omega
  · have followed := length_targets_add_unfollowed rules (Bool.eq_false_iff.mpr ‹_›)
    simp only [List.length_append, List.length_reverse, List.length_cons]
    omega

def reaches (rules : List Rule) (symbol phrase : Symbol) : Bool :=
  leadsTo rules phrase .empty (targets rules symbol).reverse

/-- The first symbol, in sort order, that unit rules lead back to itself. -/
def firstCyclic? (rules : List Rule) : Option Symbol :=
  Symbol.all.find? fun symbol => reaches rules symbol symbol

end Stencil.UnitRules
