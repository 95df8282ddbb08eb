import Stencil.Proofs.Grammar.Checks
import Stencil.Proofs.Grammar.UnitCycles

/-! # The verdict on a list of rules

Whether a list of rules is a grammar, and if not, which fault is reported, can be told without the
checks. Every list of rules gets exactly one verdict, and it is the one that the checks come to.
-/

namespace Stencil

open Relation

def Rule.Completes (rule : Rule) : Prop :=
  rule.rhs.getLast? = some .endOfInput

theorem Rule.completesParse_iff_completes {rule : Rule} :
    rule.completesParse = true ↔ rule.Completes := by
  rw [completesParse, Completes, decide_eq_true_eq, List.getLast?_eq_some_getLast rule.rhs_ne_nil,
    Option.some.injEq]

namespace Grammar

variable {rules : List Rule} {symbol : Symbol} {outcome : Except GrammarError Grammar}

def Undefined (rules : List Rule) (symbol : Symbol) : Prop :=
  symbol.isTerminal = false ∧ ∀ rule ∈ rules, rule.lhs ≠ symbol

inductive FirstUndefined : List Rule → Symbol → Prop
  | intro {before later : List Rule} {rule : Rule} {front back : List Symbol} {symbol : Symbol}
      (place : rule.rhs = front ++ symbol :: back)
      (undefined : Undefined (before ++ rule :: later) symbol)
      (here : ∀ other ∈ front, ¬Undefined (before ++ rule :: later) other)
      (earlier : ∀ other ∈ before, ∀ used ∈ other.rhs,
        ¬Undefined (before ++ rule :: later) used) :
      FirstUndefined (before ++ rule :: later) symbol

def Complete (rules : List Rule) : Prop :=
  ∀ rule ∈ rules, ∀ symbol ∈ rule.rhs, ¬Undefined rules symbol

def Cyclic (rules : List Rule) (symbol : Symbol) : Prop :=
  TransGen (UnitRules.Leads rules) symbol symbol

/-- What is to be said about a list of rules. Each fault presupposes that the list has none of the
faults above it. -/
inductive Verdict (rules : List Rule) : Except GrammarError Grammar → Prop
  | noRules (empty : rules = []) : Verdict rules (.error .noRules)
  | noCompletingRule (nonempty : rules ≠ []) (unfinished : ∀ rule ∈ rules, ¬rule.Completes) :
      Verdict rules (.error .noCompletingRule)
  | undefinedPhrase {symbol : Symbol} (completes : ∃ rule ∈ rules, rule.Completes)
      (first : FirstUndefined rules symbol) : Verdict rules (.error (.undefinedPhrase symbol))
  | unitCycle {symbol : Symbol} (completes : ∃ rule ∈ rules, rule.Completes)
      (complete : Complete rules) (cyclic : Cyclic rules symbol)
      (smallest : ∀ other, Cyclic rules other → symbol.index ≤ other.index) :
      Verdict rules (.error (.unitCycle symbol))
  | grammar {grammar : Grammar} {before later : List Rule} {rule : Rule}
      (same : grammar.rules = rules) (split : rules = before ++ rule :: later)
      (completes : rule.Completes) (first : ∀ other ∈ before, ¬other.Completes)
      (start : grammar.start = rule.lhs) (complete : Complete rules)
      (acyclic : ∀ symbol, ¬Cyclic rules symbol) : Verdict rules (.ok grammar)

/-! ## What each check finds -/

theorem lacksRule_iff : lacksRule rules symbol = true ↔ Undefined rules symbol := by
  simp only [lacksRule, Undefined, Bool.and_eq_true, Bool.not_eq_true', List.all_eq_true,
    decide_eq_true_eq]

theorem firstUndefined?_eq_none_iff : firstUndefined? rules = none ↔ Complete rules := by
  simp only [firstUndefined?, Complete, List.findSome?_eq_none_iff, List.find?_eq_none,
    lacksRule_iff]

theorem find?_lacksRule_eq_some_iff {used : List Symbol} :
    used.find? (lacksRule rules) = some symbol ↔ Undefined rules symbol ∧
      ∃ front back, used = front ++ symbol :: back ∧ ∀ other ∈ front, ¬Undefined rules other := by
  simp only [List.find?_eq_some_iff_append, lacksRule_iff, Bool.not_eq_true', ← Bool.not_eq_true]

theorem firstUndefined?_eq_some_iff :
    firstUndefined? rules = some symbol ↔ FirstUndefined rules symbol := by
  simp only [firstUndefined?, List.findSome?_eq_some_iff, find?_lacksRule_eq_some_iff,
    List.find?_eq_none, lacksRule_iff]
  constructor
  · rintro ⟨before, rule, later, rfl, ⟨undefined, front, back, place, here⟩, earlier⟩
    exact .intro place undefined here earlier
  · rintro ⟨place, undefined, here, earlier⟩
    exact ⟨_, _, _, rfl, ⟨undefined, _, _, place, here⟩, earlier⟩

theorem find?_completesParse_eq_none_iff :
    (rules.find? Rule.completesParse).map Rule.lhs = none ↔ ∀ rule ∈ rules, ¬rule.Completes := by
  simp only [Option.map_eq_none_iff, List.find?_eq_none, Rule.completesParse_iff_completes]

theorem find?_completesParse_eq_some_iff {start : Symbol} :
    (rules.find? Rule.completesParse).map Rule.lhs = some start ↔
      ∃ before rule later, rules = before ++ rule :: later ∧ rule.Completes ∧
        (∀ other ∈ before, ¬other.Completes) ∧ start = rule.lhs := by
  simp only [Option.map_eq_some_iff, List.find?_eq_some_iff_append,
    Rule.completesParse_iff_completes, Bool.not_eq_true', ← Bool.not_eq_true]
  constructor
  · rintro ⟨rule, ⟨completes, before, later, split, first⟩, rfl⟩
    exact ⟨before, rule, later, split, completes, first, rfl⟩
  · rintro ⟨before, rule, later, split, completes, first, rfl⟩
    exact ⟨rule, ⟨completes, before, later, split, first⟩, rfl⟩

/-! ## The verdict -/

theorem verdict_ofRules (rules : List Rule) : Verdict rules (ofRules rules) := by
  unfold ofRules
  split
  · rename_i empty
    exact .noRules (List.isEmpty_iff.mp empty)
  · rename_i nonempty
    split <;> rename_i found
    · refine .noCompletingRule ?_ (find?_completesParse_eq_none_iff.mp found)
      rintro rfl
      exact nonempty rfl
    · rcases find?_completesParse_eq_some_iff.mp found with
        ⟨before, rule, later, split, completes, first, start⟩
      have some : ∃ rule ∈ rules, rule.Completes := ⟨rule, by simp [split], completes⟩
      split <;> rename_i missing
      · exact .undefinedPhrase some (firstUndefined?_eq_some_iff.mp missing)
      · have complete := firstUndefined?_eq_none_iff.mp missing
        split <;> rename_i cycle
        · rcases UnitRules.firstCyclic?_eq_some_iff.mp cycle with ⟨cyclic, smallest⟩
          exact .unitCycle some complete cyclic smallest
        · have acyclic := UnitRules.firstCyclic?_eq_none_iff.mp cycle
          exact .grammar rfl split completes first start complete acyclic

theorem ofRules_of_completes (completes : ∃ rule ∈ rules, rule.Completes) :
    (∀ {missing}, firstUndefined? rules = some missing →
      ofRules rules = .error (.undefinedPhrase missing)) ∧
    ∀ {cyclic}, firstUndefined? rules = none → UnitRules.firstCyclic? rules = some cyclic →
      ofRules rules = .error (.unitCycle cyclic) := by
  rcases completes with ⟨rule, member, completes⟩
  have nonempty : ¬rules.isEmpty = true := by
    rw [List.isEmpty_iff]
    exact List.ne_nil_of_mem member
  have started : (rules.find? Rule.completesParse).map Rule.lhs ≠ none := by
    intro unfinished
    exact find?_completesParse_eq_none_iff.mp unfinished rule member completes
  unfold ofRules
  rw [if_neg nonempty]
  split <;> rename_i found
  · exact absurd found started
  · constructor
    · intro missing undefined
      split <;> rename_i checked <;> rw [undefined] at checked <;> cases checked
      rfl
    · intro cyclic complete cycle
      split <;> rename_i checked <;> rw [complete] at checked
      · cases checked
      · split <;> rename_i followed <;> rw [cycle] at followed <;> cases followed
        rfl

theorem Verdict.ofRules_eq (verdict : Verdict rules outcome) : ofRules rules = outcome := by
  cases verdict with
  | noRules empty =>
      rw [empty]
      rfl
  | noCompletingRule nonempty unfinished =>
      have none := find?_completesParse_eq_none_iff.mpr unfinished
      unfold ofRules
      rw [if_neg (by rwa [List.isEmpty_iff])]
      split <;> rename_i found
      · rfl
      · rw [none] at found
        cases found
  | undefinedPhrase completes first =>
      exact (ofRules_of_completes completes).1 (firstUndefined?_eq_some_iff.mpr first)
  | unitCycle completes complete cyclic smallest =>
      exact (ofRules_of_completes completes).2 (firstUndefined?_eq_none_iff.mpr complete)
        (UnitRules.firstCyclic?_eq_some_iff.mpr ⟨cyclic, smallest⟩)
  | grammar same => exact ofRules_eq_ok_iff.mpr same

/-- The checks come to the verdict that is to be given, whatever the rules are. The search for a
cycle ends from every symbol, after no more than two passes for each rule, and tells whether unit
rules lead the symbol back to itself. -/
theorem ofRules_eq_iff_verdict (rules : List Rule) :
    (∀ outcome, ofRules rules = outcome ↔ Verdict rules outcome) ∧
    ∀ symbol,
      (∃ passes ≤ 2 * rules.length,
        UnitRules.Searches rules symbol .empty (UnitRules.targets rules symbol).reverse passes
          (UnitRules.reaches rules symbol symbol)) ∧
      (UnitRules.reaches rules symbol symbol = true ↔ Cyclic rules symbol) := by
  constructor
  · intro outcome
    constructor
    · rintro rfl
      exact verdict_ofRules rules
    · exact Verdict.ofRules_eq
  · intro symbol
    exact ⟨UnitRules.exists_searches_reaches rules symbol symbol, UnitRules.reaches_iff⟩

end Grammar

end Stencil
