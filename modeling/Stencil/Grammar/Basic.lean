import Stencil.Grammar.Error
import Stencil.Grammar.Follow
import Stencil.Grammar.Precede
import Stencil.Grammar.UnitRules

/-!
# Grammars

A grammar is a list of rules that has passed three checks: some rule completes a parse, every
phrase in use has a rule, and unit rules form no cycle. The start symbol is what the first
completing rule builds.
-/

namespace Stencil

structure Grammar where
  rules : List Rule
  start : Symbol
  /-- The start symbol is the left-hand side of the first rule that completes a parse. -/
  start_eq : (rules.find? Rule.completesParse).map Rule.lhs = some start
  defined : ∀ rule ∈ rules, ∀ symbol ∈ rule.rhs,
    symbol.isTerminal = true ∨ ∃ other ∈ rules, other.lhs = symbol
  acyclic : UnitRules.firstCyclic? rules = none

namespace Grammar

def lacksRule (rules : List Rule) (symbol : Symbol) : Bool :=
  !symbol.isTerminal && rules.all (·.lhs ≠ symbol)

def firstUndefined? (rules : List Rule) : Option Symbol :=
  rules.findSome? fun rule => rule.rhs.find? (lacksRule rules)

theorem defined_of_firstUndefined?_eq_none {rules : List Rule}
    (complete : firstUndefined? rules = none) :
    ∀ rule ∈ rules, ∀ symbol ∈ rule.rhs,
      symbol.isTerminal = true ∨ ∃ other ∈ rules, other.lhs = symbol := by
  intro rule member symbol used
  have none := List.findSome?_eq_none_iff.mp complete rule member
  have present := List.find?_eq_none.mp none symbol used
  cases terminal : symbol.isTerminal with
  | true => exact .inl rfl
  | false => exact .inr (by simpa [lacksRule, terminal] using present)

/-- The grammar with the given rules. Of several faults the first in the order of the checks is
reported. -/
def ofRules (rules : List Rule) : Except GrammarError Grammar :=
  if rules.isEmpty then .error .noRules
  else match start : (rules.find? Rule.completesParse).map Rule.lhs with
    | none => .error .noCompletingRule
    | some symbol =>
      match complete : firstUndefined? rules with
      | some missing => .error (.undefinedPhrase missing)
      | none =>
        match acyclic : UnitRules.firstCyclic? rules with
        | some cyclic => .error (.unitCycle cyclic)
        | none =>
          .ok ⟨rules, symbol, start, defined_of_firstUndefined?_eq_none complete, acyclic⟩

def symbols (grammar : Grammar) : List Symbol :=
  Symbol.all.filter fun symbol => grammar.rules.any (·.rhs.contains symbol)

structure Surroundings where
  first : SetFamily
  follow : SetFamily
  precede : SetFamily

def surroundings (grammar : Grammar) : Surroundings :=
  let first := FirstSets.ofRules grammar.rules
  { first := .ofFn (FirstSets.beginnings first)
    follow := FollowSets.ofRules first grammar.rules grammar.start
    precede := PrecedeSets.ofRules grammar.rules grammar.start }

end Grammar

end Stencil
