import Stencil.Grammar.Basic

/-! # Rules that pass the checks

A list of rules is made into a grammar after three checks. A grammar carries what they found, so the
lists that pass them are the rules of grammars and no others.
-/

namespace Stencil.Grammar

variable {rules : List Rule} {grammar : Grammar}

theorem firstUndefined?_eq_none (defined : ∀ rule ∈ rules, ∀ symbol ∈ rule.rhs,
    symbol.isTerminal = true ∨ ∃ other ∈ rules, other.lhs = symbol) :
    firstUndefined? rules = none := by
  apply List.findSome?_eq_none_iff.mpr
  intro rule member
  apply List.find?_eq_none.mpr
  intro symbol used lacking
  rcases defined rule member symbol used with terminal | ⟨other, otherMember, same⟩
  · simp [lacksRule, terminal] at lacking
  · simp only [lacksRule, Bool.and_eq_true, List.all_eq_true, decide_eq_true_eq] at lacking
    exact lacking.2 other otherMember same

theorem rules_ne_nil (grammar : Grammar) : grammar.rules ≠ [] := by
  intro empty
  have start := grammar.start_eq
  rw [empty] at start
  cases start

theorem ofRules_rules (grammar : Grammar) : ofRules grammar.rules = .ok grammar := by
  have nonempty := grammar.rules_ne_nil
  rcases grammar with ⟨rules, start, startEq, defined, acyclic⟩
  have complete := firstUndefined?_eq_none defined
  unfold ofRules
  rw [if_neg (by simpa using nonempty)]
  split <;> rename_i found <;> rw [startEq] at found
  · cases found
  · rcases Option.some.inj found with rfl
    split <;> rename_i undefined
    · rw [complete] at undefined
      cases undefined
    · split <;> rename_i cyclic
      · rw [acyclic] at cyclic
        cases cyclic
      · rfl

theorem ofRules_eq_ok_iff : ofRules rules = .ok grammar ↔ grammar.rules = rules := by
  constructor
  · intro accepted
    unfold ofRules at accepted
    split at accepted
    · cases accepted
    · split at accepted
      · cases accepted
      · split at accepted
        · cases accepted
        · split at accepted
          · cases accepted
          · cases accepted
            rfl
  · rintro rfl
    exact grammar.ofRules_rules

end Stencil.Grammar
