import Mathlib.Logic.Relation
import Stencil.Proofs.Grammar.Checks
import Stencil.Proofs.Grammar.Settling

/-! # Sentential forms and what begins them

Rules rewrite rows of symbols: a phrase somewhere in a row gives way to the symbols of one of its
rules. The rows that a symbol leads to are its sentential forms. FIRST is defined by a loop over the
rules. The main statement is that it holds exactly the terminals that stand in front of sentential
forms.
-/

namespace Stencil

open Relation

/-- One step of a derivation: the left-hand side of a rule, anywhere in a row of symbols, is replaced
by the right-hand side. -/
inductive Rewrites (rules : List Rule) : List Symbol → List Symbol → Prop
  | step {rule : Rule} (member : rule ∈ rules) (before after : List Symbol) :
      Rewrites rules (before ++ rule.lhs :: after) (before ++ rule.rhs ++ after)

namespace Rewrites

variable {rules : List Rule} {form other : List Symbol}

theorem ofRule {rule : Rule} (member : rule ∈ rules) : Rewrites rules [rule.lhs] rule.rhs := by
  simpa using step member [] []

theorem surround (rewrites : Rewrites rules form other) (before after : List Symbol) :
    Rewrites rules (before ++ form ++ after) (before ++ other ++ after) := by
  cases rewrites with
  | step member left right => simpa using step member (before ++ left) (right ++ after)

theorem surround_reflTransGen (derives : ReflTransGen (Rewrites rules) form other)
    (before after : List Symbol) :
    ReflTransGen (Rewrites rules) (before ++ form ++ after) (before ++ other ++ after) :=
  derives.lift (before ++ · ++ after) fun _ _ rewrites => rewrites.surround before after

theorem transGen_of_rhs {rule : Rule} (member : rule ∈ rules) {before after : List Symbol}
    (split : rule.rhs = before ++ form ++ after)
    (derives : ReflTransGen (Rewrites rules) form other) :
    TransGen (Rewrites rules) [rule.lhs] (before ++ other ++ after) := by
  have first : Rewrites rules [rule.lhs] (before ++ form ++ after) := split ▸ ofRule member
  exact .head' first (surround_reflTransGen derives before after)

end Rewrites

namespace FirstSets

variable {rules : List Rule} {symbol : Symbol} {slot : Option Symbol}

/-! ## Members of FIRST begin sentential forms -/

/-- What FIRST of a symbol may hold: a terminal in front of one of the symbol's sentential forms. -/
def Begins (rules : List Rule) (symbol : Symbol) (slot : Option Symbol) : Prop :=
  ∃ terminal rest, slot = some terminal ∧ terminal.isTerminal = true ∧
    TransGen (Rewrites rules) [symbol] (terminal :: rest)

theorem exists_of_contains_beginnings {family : SetFamily} (within : family.Within (Begins rules))
    (held : (beginnings family symbol).contains slot = true) :
    ∃ terminal rest, slot = some terminal ∧ terminal.isTerminal = true ∧
      ReflTransGen (Rewrites rules) [symbol] (terminal :: rest) := by
  cases kind : symbol.isTerminal with
  | true =>
      rw [beginnings_of_terminal _ kind, SymbolSet.contains_singleton, decide_eq_true_eq] at held
      exact ⟨symbol, [], held, kind, .refl⟩
  | false =>
      rw [beginnings_of_phrase _ kind] at held
      rcases within symbol slot held with ⟨terminal, rest, same, own, derives⟩
      exact ⟨terminal, rest, same, own, derives.to_reflTransGen⟩

theorem within_ofRules (rules : List Rule) : (ofRules rules).Within (Begins rules) := by
  refine SetFamily.within_empty.saturate_foldl (included_round rules) ?_
  intro rule member family within
  refine within.extend ?_
  intro slot held
  rcases exists_of_contains_beginnings within held with ⟨terminal, rest, same, own, derives⟩
  have split : rule.rhs = [] ++ [rule.head] ++ rule.rhs.tail := rule.rhs_eq_head_cons
  exact ⟨terminal, rest ++ rule.rhs.tail, same, own, Rewrites.transGen_of_rhs member split derives⟩

/-! ## What begins sentential forms is in FIRST -/

/-- Whatever stands in front of a sentential form begins with nothing new. The induction is on the
steps: a step changes the front only where it applies a rule to it, and FIRST passes from the first
symbol of the rule to its left-hand side. -/
theorem contains_of_derives (phrases : ∀ rule ∈ rules, rule.lhs.isTerminal = false)
    {form : List Symbol} (derives : ReflTransGen (Rewrites rules) [symbol] form) {front : Symbol}
    {rest : List Symbol} (shown : form = front :: rest)
    (held : (beginnings (ofRules rules) front).contains slot = true) :
    (beginnings (ofRules rules) symbol).contains slot = true := by
  induction derives generalizing front rest with
  | refl =>
      rcases List.cons.inj shown with ⟨rfl, _⟩
      exact held
  | tail _ rewrites induction =>
      cases rewrites with
      | @step rule member before after =>
          cases before with
          | nil =>
              rw [List.nil_append, rule.rhs_eq_head_cons] at shown
              rcases List.cons.inj shown with ⟨rfl, _⟩
              have lhs : (beginnings (ofRules rules) rule.lhs).contains slot = true := by
                rw [beginnings_of_phrase _ (phrases rule member)]
                exact contains_lhs member held
              exact induction rfl lhs
          | cons first more =>
              rcases List.cons.inj shown with ⟨rfl, _⟩
              exact induction rfl held

theorem contains_ofRules_iff (phrases : ∀ rule ∈ rules, rule.lhs.isTerminal = false)
    (phrase : symbol.isTerminal = false) :
    ((ofRules rules).get symbol).contains slot = true ↔ Begins rules symbol slot := by
  constructor
  · exact within_ofRules rules symbol slot
  · rintro ⟨terminal, rest, rfl, own, derives⟩
    have itself : (beginnings (ofRules rules) terminal).contains (some terminal) = true := by
      simp [beginnings_of_terminal _ own]
    have held := contains_of_derives phrases derives.to_reflTransGen rfl itself
    rwa [beginnings_of_phrase _ phrase] at held

end FirstSets

/-! ## FIRST of a grammar -/

namespace Grammar

/-- Rows that grow at their right end: `elements` and `element` begin with each other, and what both
begin with is only said by the last rule. A whole text can also be a text and one element, without a
mark at its end. -/
def growingRules : List Rule :=
  [{ lhs := .source, rhs := [.elements, .text, .endOfInput] },
   { lhs := .source, rhs := [.text, .element] },
   { lhs := .elements, rhs := [.element, .blank] },
   { lhs := .element, rhs := [.elements, .newline] },
   { lhs := .element, rhs := [.placeholder, .placeholder] },
   { lhs := .placeholder, rhs := [.openBraces, .name] }]

def growing : Grammar where
  rules := growingRules
  start := .source
  start_eq := by decide
  defined := by decide
  acyclic := by decide +kernel

/-- The loop for FIRST ends. A terminal begins with itself only, and a phrase begins with exactly the
terminals that stand in front of its sentential forms. -/
theorem contains_first_iff {rules : List Rule} {grammar : Grammar}
    (accepted : ofRules rules = .ok grammar)
    (phrases : ∀ rule ∈ rules, rule.lhs.isTerminal = false) :
    (∃ rounds ≤ SetFamily.slots.length, SetFamily.Settles (FirstSets.round rules)
      (.replicate .empty) rounds (FirstSets.ofRules rules)) ∧
    (∀ symbol, symbol.isTerminal = false → ∀ slot,
      (grammar.surroundings.first.get symbol).contains slot = true ↔
        ∃ terminal rest, slot = some terminal ∧ terminal.isTerminal = true ∧
          TransGen (Rewrites rules) [symbol] (terminal :: rest)) ∧
    ∀ symbol, symbol.isTerminal = true →
      grammar.surroundings.first.get symbol = .singleton symbol := by
  rcases ofRules_eq_ok_iff.mp accepted with rfl
  refine ⟨SetFamily.exists_settles_saturate _ _, ?_, ?_⟩
  · intro symbol phrase slot
    simp only [surroundings, PerSymbol.get_ofFn]
    rw [FirstSets.beginnings_of_phrase _ phrase]
    exact FirstSets.contains_ofRules_iff phrases phrase
  · intro symbol terminal
    simp [surroundings, FirstSets.beginnings_of_terminal _ terminal]

theorem contains_first_iff_growing :
    ofRules growingRules = .ok growing ∧
    (∀ rule ∈ growingRules, rule.lhs.isTerminal = false) ∧
    (∃ rest, TransGen (Rewrites growingRules) [.source] (.openBraces :: rest)) ∧
    ¬∃ rest, TransGen (Rewrites growingRules) [.source] (.name :: rest) := by
  have accepted : ofRules growingRules = .ok growing := growing.ofRules_rules
  have phrases : ∀ rule ∈ growingRules, rule.lhs.isTerminal = false := by decide
  have begins := (contains_first_iff accepted phrases).2.1 .source rfl
  have braces : (growing.surroundings.first.get .source).contains (some .openBraces) = true := by
    decide +kernel
  have name : (growing.surroundings.first.get .source).contains (some .name) = false := by
    decide +kernel
  refine ⟨accepted, phrases, ?_, ?_⟩
  · rcases (begins _).mp braces with ⟨terminal, rest, same, _, derives⟩
    cases same
    exact ⟨rest, derives⟩
  · rintro ⟨rest, derives⟩
    have held := (begins _).mpr ⟨.name, rest, rfl, rfl, derives⟩
    rw [name] at held
    cases held

end Grammar

end Stencil
