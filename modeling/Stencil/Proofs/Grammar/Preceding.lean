import Mathlib.Logic.Relation
import Stencil.Proofs.Grammar.Checks
import Stencil.Proofs.Grammar.Settling

/-! # What lies below a symbol

PRECEDE is found by two loops, one for the symbols that a symbol begins with and one for what lies
below. The main statement says what comes out without either of them: a symbol lies below another if
some rule has it directly in front of a symbol with which the other begins, and nothing lies below
what the start symbol begins with.

Nothing here asks whether left-hand sides are phrases. A rule for a terminal is treated like others.
-/

namespace Stencil

open Relation

/-- The symbol begins with the other by a single rule. -/
def BeginsWith (rules : List Rule) (symbol first : Symbol) : Prop :=
  ∃ rule ∈ rules, rule.lhs = symbol ∧ rule.head = first

namespace LeftSets

variable {rules : List Rule} {symbol other : Symbol}

/-- What LEFT of a symbol may hold: symbols that the symbol begins with, in zero or more steps. -/
def Leads (rules : List Rule) (symbol : Symbol) (slot : Option Symbol) : Prop :=
  ∃ first, slot = some first ∧ ReflTransGen (BeginsWith rules) symbol first

theorem within_ofRules (rules : List Rule) : (ofRules rules).Within (Leads rules) := by
  have seeded : SetFamily.Within (Leads rules) (.ofFn SymbolSet.singleton) := by
    intro symbol slot held
    rw [PerSymbol.get_ofFn, SymbolSet.contains_singleton, decide_eq_true_eq] at held
    exact ⟨symbol, held, .refl⟩
  refine seeded.saturate_foldl (included_round rules) ?_
  intro rule member family within
  refine within.extend ?_
  intro slot held
  rcases within rule.head slot held with ⟨first, same, leads⟩
  exact ⟨first, same, .head ⟨rule, member, rfl, rfl⟩ leads⟩

theorem contains_ofRules_iff :
    ((ofRules rules).get symbol).contains (some other) = true ↔
      ReflTransGen (BeginsWith rules) symbol other := by
  constructor
  · intro held
    rcases within_ofRules rules symbol (some other) held with ⟨first, same, leads⟩
    cases same
    exact leads
  · intro leads
    induction leads using ReflTransGen.head_induction_on with
    | refl => exact contains_self rules other
    | head begins _ induction =>
        rcases begins with ⟨rule, member, rfl, rfl⟩
        exact contains_lhs member induction

theorem mem_toList_iff :
    other ∈ ((ofRules rules).get symbol).toList ↔ ReflTransGen (BeginsWith rules) symbol other :=
  (SymbolSet.mem_toList _ _).trans contains_ofRules_iff

end LeftSets

namespace PrecedeSets

variable {rules : List Rule} {start symbol : Symbol} {slot : Option Symbol}

/-- What PRECEDE of a symbol may hold: the left one of two neighbours on a right-hand side if the
right one begins with the symbol, and the boundary if the start symbol begins with it. -/
def Precedes (rules : List Rule) (start symbol : Symbol) : Option Symbol → Prop
  | some below => ∃ rule ∈ rules, ∃ before next after, rule.rhs = before ++ below :: next :: after ∧
      ReflTransGen (BeginsWith rules) next symbol
  | none => ReflTransGen (BeginsWith rules) start symbol

theorem Precedes.trans {first : Symbol} (precedes : Precedes rules start symbol slot)
    (leads : ReflTransGen (BeginsWith rules) symbol first) : Precedes rules start first slot := by
  cases slot with
  | some below =>
      rcases precedes with ⟨rule, member, before, next, after, split, earlier⟩
      exact ⟨rule, member, before, next, after, split, earlier.trans leads⟩
  | none => exact ReflTransGen.trans precedes leads

/-! ## Members of PRECEDE lie below -/

theorem within_extendAll {family : SetFamily} (within : family.Within (Precedes rules start))
    {symbols : List Symbol} {added : SymbolSet}
    (allowed : ∀ symbol ∈ symbols, ∀ slot, added.contains slot = true →
      Precedes rules start symbol slot) :
    (extendAll family symbols added).Within (Precedes rules start) :=
  within.foldl fun symbol member _ before => before.extend (allowed symbol member)

theorem within_addNeighbours {rule : Rule} (member : rule ∈ rules) {before symbols : List Symbol}
    (split : rule.rhs = before ++ symbols) {family : SetFamily}
    (within : family.Within (Precedes rules start)) :
    (addNeighbours (LeftSets.ofRules rules) family symbols).Within (Precedes rules start) := by
  induction symbols generalizing before family with
  | nil => exact within
  | cons below later induction =>
      cases later with
      | nil => exact within
      | cons next after =>
          have further : rule.rhs = (before ++ [below]) ++ next :: after := by simp [split]
          refine induction further (within_extendAll within ?_)
          intro symbol leads slot held
          rw [SymbolSet.contains_singleton, decide_eq_true_eq] at held
          subst held
          exact ⟨rule, member, before, next, after, split, LeftSets.mem_toList_iff.mp leads⟩

theorem within_seed (rules : List Rule) (start : Symbol) :
    (seed (LeftSets.ofRules rules) rules start).Within (Precedes rules start) := by
  have bottom : (extendAll (.replicate .empty) ((LeftSets.ofRules rules).get start).toList
      SymbolSet.empty.insertBoundary).Within (Precedes rules start) := by
    refine within_extendAll SetFamily.within_empty ?_
    intro symbol leads slot held
    rw [SymbolSet.contains_insertBoundary, SymbolSet.contains_empty, Bool.or_false,
      decide_eq_true_eq] at held
    subst held
    exact LeftSets.mem_toList_iff.mp leads
  refine bottom.foldl ?_
  intro rule member family within
  exact within_addNeighbours member (List.nil_append _).symm within

/-- What a phrase passes on was allowed below the phrase, so it is allowed below all that begins the
phrase: the loop brings in nothing wrong. -/
theorem within_ofRules (rules : List Rule) (start : Symbol) :
    (ofRules rules start).Within (Precedes rules start) := by
  refine (within_seed rules start).saturate_foldl (included_round (LeftSets.ofRules rules) rules) ?_
  intro rule member family within
  refine within_extendAll within ?_
  intro symbol leads slot held
  have begins : BeginsWith rules rule.lhs rule.head := ⟨rule, member, rfl, rfl⟩
  exact (within rule.lhs slot held).trans (.head begins (LeftSets.mem_toList_iff.mp leads))

/-! ## What lies below is in PRECEDE -/

theorem contains_of_leads {first : Symbol} (leads : ReflTransGen (BeginsWith rules) symbol first)
    (held : ((ofRules rules start).get symbol).contains slot = true) :
    ((ofRules rules start).get first).contains slot = true := by
  induction leads with
  | refl => exact held
  | tail _ begins induction =>
      rcases begins with ⟨rule, member, rfl, rfl⟩
      exact contains_head member induction

theorem contains_ofRules_iff :
    ((ofRules rules start).get symbol).contains slot = true ↔ Precedes rules start symbol slot := by
  constructor
  · exact within_ofRules rules start symbol slot
  · intro precedes
    cases slot with
    | some below =>
        rcases precedes with ⟨rule, member, before, next, after, split, leads⟩
        exact contains_of_leads leads (contains_neighbour member split)
    | none => exact contains_of_leads precedes (contains_start rules start)

end PrecedeSets

/-! ## PRECEDE of a grammar -/

namespace Grammar

/-- Rules in which a phrase begins with itself and a terminal is built like a phrase. -/
def layeredRules : List Rule :=
  [{ lhs := .source, rhs := [.elements, .dot, .endOfInput] },
   { lhs := .elements, rhs := [.text, .blank, .element] },
   { lhs := .blank, rhs := [.newline, .dot] },
   { lhs := .element, rhs := [.element, .name] },
   { lhs := .element, rhs := [.placeholder, .blank] },
   { lhs := .placeholder, rhs := [.openBraces, .closeBraces] }]

def layered : Grammar where
  rules := layeredRules
  start := .source
  start_eq := by decide
  defined := by decide
  acyclic := by decide +kernel

/-- Both loops for PRECEDE end. A symbol is preceded by exactly those that some rule has directly in
front of a symbol that begins with it, and by the bottom of the stack exactly if the start symbol
begins with it. -/
theorem contains_precede_iff {rules : List Rule} {grammar : Grammar}
    (accepted : ofRules rules = .ok grammar) :
    (∃ rounds ≤ SetFamily.slots.length, SetFamily.Settles (LeftSets.round rules)
      (.ofFn SymbolSet.singleton) rounds (LeftSets.ofRules rules)) ∧
    (∃ rounds ≤ SetFamily.slots.length, SetFamily.Settles
      (PrecedeSets.round (LeftSets.ofRules rules) rules)
      (PrecedeSets.seed (LeftSets.ofRules rules) rules grammar.start) rounds
      grammar.surroundings.precede) ∧
    ∀ symbol,
      (∀ below, (grammar.surroundings.precede.get symbol).contains (some below) = true ↔
        ∃ rule ∈ rules, ∃ before next after, rule.rhs = before ++ below :: next :: after ∧
          ReflTransGen (BeginsWith rules) next symbol) ∧
      ((grammar.surroundings.precede.get symbol).contains none = true ↔
        ReflTransGen (BeginsWith rules) grammar.start symbol) := by
  rcases ofRules_eq_ok_iff.mp accepted with rfl
  refine ⟨SetFamily.exists_settles_saturate _ _, SetFamily.exists_settles_saturate _ _, ?_⟩
  intro symbol
  exact ⟨fun below => PrecedeSets.contains_ofRules_iff, PrecedeSets.contains_ofRules_iff⟩

theorem contains_precede_iff_layered :
    ofRules layeredRules = .ok layered ∧
    (∃ rule ∈ layeredRules, ∃ before next after, rule.rhs = before ++ .blank :: next :: after ∧
      ReflTransGen (BeginsWith layeredRules) next .openBraces) ∧
    (∃ rule ∈ layeredRules, ∃ before next after, rule.rhs = before ++ .text :: next :: after ∧
      ReflTransGen (BeginsWith layeredRules) next .newline) ∧
    ReflTransGen (BeginsWith layeredRules) .source .text ∧
    ¬ReflTransGen (BeginsWith layeredRules) .source .openBraces := by
  have accepted : ofRules layeredRules = .ok layered := layered.ofRules_rules
  have precede := (contains_precede_iff accepted).2.2
  have blank : (layered.surroundings.precede.get .openBraces).contains (some .blank) = true := by
    decide +kernel
  have text : (layered.surroundings.precede.get .newline).contains (some .text) = true := by
    decide +kernel
  have bottom : (layered.surroundings.precede.get .text).contains none = true := by
    decide +kernel
  have inside : (layered.surroundings.precede.get .openBraces).contains none = false := by
    decide +kernel
  refine ⟨accepted, ((precede .openBraces).1 _).mp blank, ((precede .newline).1 _).mp text,
    (precede .text).2.mp bottom, ?_⟩
  intro leads
  have held := (precede .openBraces).2.mpr leads
  rw [inside] at held
  cases held

end Grammar

end Stencil
