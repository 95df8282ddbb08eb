import Mathlib.Data.List.Chain
import Stencil.Proofs.Grammar.Sentential

/-! # What stands behind a phrase in sentential forms

FOLLOW of a phrase is found in the rules: behind a symbol of a right-hand side stands what the next
one begins with, and behind the last one what follows the whole phrase. The main statement is that
this gives exactly the terminals that stand directly behind the phrase in some sentential form, and
the boundary exactly if the phrase stands at the end of some sentential form of the start symbol.
-/

namespace Stencil

open Relation

namespace FollowSets

variable {rules : List Rule} {start symbol : Symbol} {slot : Option Symbol}

/-! ## Members of FOLLOW stand behind the phrase -/

/-- What FOLLOW of a symbol may hold: a terminal that stands directly behind the symbol in a
sentential form, and the boundary if the symbol ends a sentential form of the start symbol. -/
def Follows (rules : List Rule) (start symbol : Symbol) : Option Symbol → Prop
  | some next => next.isTerminal = true ∧ ∃ rule ∈ rules, ∃ before after,
      TransGen (Rewrites rules) [rule.lhs] (before ++ symbol :: next :: after)
  | none => ∃ before, ReflTransGen (Rewrites rules) [start] (before ++ [symbol])

theorem Follows.last {rule : Rule} (member : rule ∈ rules) {before : List Symbol}
    (split : rule.rhs = before ++ [symbol]) (follows : Follows rules start rule.lhs slot) :
    Follows rules start symbol slot := by
  cases slot with
  | some next =>
      rcases follows with ⟨terminal, other, otherMember, left, right, derives⟩
      refine ⟨terminal, other, otherMember, left ++ before, right, ?_⟩
      have applied := Rewrites.step member left (next :: right)
      rw [split] at applied
      simpa using derives.tail applied
  | none =>
      rcases follows with ⟨left, derives⟩
      refine ⟨left ++ before, ?_⟩
      have applied := Rewrites.step member left []
      rw [split] at applied
      simpa using derives.tail applied

theorem follows_of_beginnings {rule : Rule} (member : rule ∈ rules) {before : List Symbol}
    {next : Symbol} {after : List Symbol} (split : rule.rhs = before ++ symbol :: next :: after)
    (held : (FirstSets.beginnings (FirstSets.ofRules rules) next).contains slot = true) :
    Follows rules start symbol slot := by
  rcases FirstSets.exists_of_contains_beginnings (FirstSets.within_ofRules rules) held with
      ⟨terminal, rest, rfl, own, derives⟩
  have inside : rule.rhs = (before ++ [symbol]) ++ [next] ++ after := by simp [split]
  refine ⟨own, rule, member, before, rest ++ after, ?_⟩
  simpa using Rewrites.transGen_of_rhs member inside derives

theorem within_addSymbols {rule : Rule} (member : rule ∈ rules) {before symbols : List Symbol}
    (split : rule.rhs = before ++ symbols) {family : SetFamily}
    (within : family.Within (Follows rules start)) :
    (addSymbols (FirstSets.ofRules rules) rule.lhs family symbols).Within (Follows rules start) := by
  induction symbols generalizing before family with
  | nil => exact within
  | cons symbol after induction =>
      rw [addSymbols_cons]
      have later : rule.rhs = (before ++ [symbol]) ++ after := by simp [split]
      refine induction later ?_
      split
      · exact within
      · refine within.extend ?_
        intro slot held
        cases after with
        | nil => exact (within rule.lhs slot held).last member split
        | cons next later => exact follows_of_beginnings member split held

theorem within_ofRules (rules : List Rule) (start : Symbol) :
    (ofRules (FirstSets.ofRules rules) rules start).Within (Follows rules start) := by
  have seeded : (seed start).Within (Follows rules start) := by
    refine SetFamily.within_empty.extend ?_
    intro slot held
    rw [SymbolSet.contains_insertBoundary, SymbolSet.contains_empty, Bool.or_false,
      decide_eq_true_eq] at held
    exact held ▸ ⟨[], .refl⟩
  refine seeded.saturate_foldl (included_round (FirstSets.ofRules rules) rules) ?_
  intro rule member family within
  exact within_addSymbols member (List.nil_append _).symm within

/-! ## What stands behind the phrase is in FOLLOW -/

/-- Two neighbours of a row agree with the sets: what begins the right one follows the left one, if
the left one is a phrase. -/
def Adjoins (rules : List Rule) (start symbol next : Symbol) : Prop :=
  symbol.isTerminal = false →
    ∀ slot, (FirstSets.beginnings (FirstSets.ofRules rules) next).contains slot = true →
      ((ofRules (FirstSets.ofRules rules) rules start).get symbol).contains slot = true

def MayEnd (rules : List Rule) (start : Symbol) (slot : Option Symbol) (form : List Symbol) : Prop :=
  ∀ last ∈ form.getLast?, last.isTerminal = false →
    ((ofRules (FirstSets.ofRules rules) rules start).get last).contains slot = true

theorem isChain_rhs {rule : Rule} (member : rule ∈ rules) :
    rule.rhs.IsChain (Adjoins rules start) := by
  apply List.isChain_iff_forall_rel_of_append_cons_cons.mpr
  intro symbol next before after split phrase slot held
  exact contains_symbol member split phrase held

theorem mayEnd_rhs {rule : Rule} (member : rule ∈ rules)
    (held : ((ofRules (FirstSets.ofRules rules) rules start).get rule.lhs).contains slot = true) :
    MayEnd rules start slot rule.rhs := by
  intro last found phrase
  rcases List.getLast?_eq_some_iff.mp found with ⟨before, split⟩
  exact contains_symbol member split phrase held

theorem Adjoins.head {rule : Rule} (member : rule ∈ rules) (phrase : rule.lhs.isTerminal = false)
    (adjoins : Adjoins rules start symbol rule.lhs) : Adjoins rules start symbol rule.head := by
  intro own slot held
  apply adjoins own
  rw [FirstSets.beginnings_of_phrase _ phrase]
  exact FirstSets.contains_lhs member held

variable {form other : List Symbol}

/-- A rule applied inside a row has old neighbours on both sides. What was in order between them and
the left-hand side is in order between them and the outer symbols of the right-hand side. -/
theorem isChain_of_rewrites (phrases : ∀ rule ∈ rules, rule.lhs.isTerminal = false)
    (rewrites : Rewrites rules form other) (chain : form.IsChain (Adjoins rules start)) :
    other.IsChain (Adjoins rules start) := by
  cases rewrites with
  | @step rule member before after =>
      have phrase := phrases rule member
      rcases List.isChain_append.mp chain with ⟨left, rest, meets⟩
      rcases List.isChain_cons.mp rest with ⟨follows, right⟩
      -- The rule begins with less than its left-hand side, so nothing new meets the left neighbour.
      have front : (before ++ rule.rhs).IsChain (Adjoins rules start) := by
        refine List.isChain_append.mpr ⟨left, isChain_rhs member, ?_⟩
        intro last found first shown
        rw [rule.rhs_eq_head_cons, List.head?_cons, Option.mem_some_iff] at shown
        exact shown ▸ (meets last found rule.lhs rfl).head member phrase
      -- What begins the right neighbour follows the left-hand side, so it follows the last symbol.
      refine List.isChain_append.mpr ⟨front, right, ?_⟩
      intro last found first shown own slot held
      rw [List.getLast?_append_of_ne_nil _ rule.rhs_ne_nil] at found
      exact mayEnd_rhs member (follows first shown phrase slot held) last found own

theorem mayEnd_of_rewrites (phrases : ∀ rule ∈ rules, rule.lhs.isTerminal = false)
    (rewrites : Rewrites rules form other) (ends : MayEnd rules start slot form) :
    MayEnd rules start slot other := by
  cases rewrites with
  | @step rule member before after =>
      cases after with
      | nil =>
          intro last found
          rw [List.append_nil, List.getLast?_append_of_ne_nil _ rule.rhs_ne_nil] at found
          have held := ends rule.lhs (by simp) (phrases rule member)
          exact mayEnd_rhs member held last found
      | cons next later =>
          intro last found
          apply ends last
          simpa using found

theorem isChain_of_derives (phrases : ∀ rule ∈ rules, rule.lhs.isTerminal = false)
    (derives : ReflTransGen (Rewrites rules) [symbol] form) :
    form.IsChain (Adjoins rules start) := by
  induction derives with
  | refl => exact List.isChain_singleton symbol
  | tail _ rewrites induction => exact isChain_of_rewrites phrases rewrites induction

theorem mayEnd_of_derives (phrases : ∀ rule ∈ rules, rule.lhs.isTerminal = false)
    (derives : ReflTransGen (Rewrites rules) [start] form) : MayEnd rules start none form := by
  induction derives with
  | refl =>
      intro last found _
      cases found
      exact contains_start (FirstSets.ofRules rules) rules start
  | tail _ rewrites induction => exact mayEnd_of_rewrites phrases rewrites induction

theorem contains_ofRules_iff (phrases : ∀ rule ∈ rules, rule.lhs.isTerminal = false)
    (phrase : symbol.isTerminal = false) :
    ((ofRules (FirstSets.ofRules rules) rules start).get symbol).contains slot = true ↔
      Follows rules start symbol slot := by
  constructor
  · exact within_ofRules rules start symbol slot
  · intro follows
    cases slot with
    | some next =>
        rcases follows with ⟨terminal, rule, _, before, after, derives⟩
        have chain : List.IsChain (Adjoins rules start) (before ++ symbol :: next :: after) :=
          isChain_of_derives phrases derives.to_reflTransGen
        have adjoins := List.isChain_iff_forall_rel_of_append_cons_cons.mp chain rfl
        exact adjoins phrase (some next) (by simp [FirstSets.beginnings_of_terminal _ terminal])
    | none =>
        rcases follows with ⟨before, derives⟩
        exact mayEnd_of_derives phrases derives symbol (by simp) phrase

end FollowSets

/-! ## FOLLOW of a grammar -/

namespace Grammar

/-- The loop for FOLLOW ends. A phrase is followed by exactly the terminals that stand directly behind
it in what some left-hand side derives, and by the end of the input exactly if it ends something that
the start symbol derives. -/
theorem contains_follow_iff {rules : List Rule} {grammar : Grammar}
    (accepted : ofRules rules = .ok grammar)
    (phrases : ∀ rule ∈ rules, rule.lhs.isTerminal = false) :
    (∃ rounds ≤ SetFamily.slots.length, SetFamily.Settles
      (FollowSets.round (FirstSets.ofRules rules) rules) (FollowSets.seed grammar.start) rounds
      grammar.surroundings.follow) ∧
    ∀ symbol, symbol.isTerminal = false →
      (∀ next, (grammar.surroundings.follow.get symbol).contains (some next) = true ↔
        next.isTerminal = true ∧ ∃ rule ∈ rules, ∃ before after,
          TransGen (Rewrites rules) [rule.lhs] (before ++ symbol :: next :: after)) ∧
      ((grammar.surroundings.follow.get symbol).contains none = true ↔
        ∃ before, ReflTransGen (Rewrites rules) [grammar.start] (before ++ [symbol])) := by
  rcases ofRules_eq_ok_iff.mp accepted with rfl
  refine ⟨SetFamily.exists_settles_saturate _ _, ?_⟩
  intro symbol phrase
  exact ⟨fun next => FollowSets.contains_ofRules_iff phrases phrase,
    FollowSets.contains_ofRules_iff phrases phrase⟩

theorem contains_follow_iff_growing :
    ofRules growingRules = .ok growing ∧
    (∀ rule ∈ growingRules, rule.lhs.isTerminal = false) ∧
    (∃ rule ∈ growingRules, ∃ before after,
      TransGen (Rewrites growingRules) [rule.lhs] (before ++ .placeholder :: .blank :: after)) ∧
    (¬∃ rule ∈ growingRules, ∃ before after,
      TransGen (Rewrites growingRules) [rule.lhs] (before ++ .placeholder :: .newline :: after)) ∧
    ∃ before, ReflTransGen (Rewrites growingRules) [.source] (before ++ [.placeholder]) := by
  have accepted : ofRules growingRules = .ok growing := growing.ofRules_rules
  have phrases : ∀ rule ∈ growingRules, rule.lhs.isTerminal = false := by decide
  rcases (contains_follow_iff accepted phrases).2 .placeholder rfl with ⟨behind, ending⟩
  have blank : (growing.surroundings.follow.get .placeholder).contains (some .blank) = true := by
    decide +kernel
  have newline :
      (growing.surroundings.follow.get .placeholder).contains (some .newline) = false := by
    decide +kernel
  have nothing : (growing.surroundings.follow.get .placeholder).contains none = true := by
    decide +kernel
  refine ⟨accepted, phrases, ((behind _).mp blank).2, ?_, ending.mp nothing⟩
  intro found
  have held := (behind .newline).mpr ⟨rfl, found⟩
  rw [newline] at held
  cases held

end Grammar

end Stencil
