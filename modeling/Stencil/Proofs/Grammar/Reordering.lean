import Stencil.Proofs.Grammar.Checks
import Stencil.Proofs.Grammar.Closure
import Stencil.Proofs.Grammar.UnitCycles

/-! # Rules in another order

The sets of a grammar are found by going through the rules again and again, each time in their
order. What is found in the end is the least family that is closed under every rule, and that does
not depend on which rule came first. So only the start symbol can tell two orders apart.
-/

namespace Stencil

namespace SetFamily

/-! ## Least closed families -/

theorem Included.extend {smaller larger : SetFamily} (included : Included smaller larger)
    (symbol : Symbol) {fewer more : SymbolSet}
    (within : ∀ slot, fewer.contains slot = true → more.contains slot = true) :
    Included (smaller.extend symbol fewer) (larger.extend symbol more) := by
  intro other slot held
  rw [contains_get_extend, Bool.or_eq_true, Bool.and_eq_true] at held ⊢
  rcases held with present | ⟨same, added⟩
  · exact .inl (included other slot present)
  · exact .inr ⟨same, within slot added⟩

section Rounds

variable {α : Type} {add : SetFamily → α → SetFamily}

/-- An item adds at least as much to a larger family. -/
def KeepsInclusion (add : SetFamily → α → SetFamily) : Prop :=
  ∀ item smaller larger, Included smaller larger → Included (add smaller item) (add larger item)

theorem included_foldl_of_closed (keeps : KeepsInclusion add) {items : List α}
    {closed : SetFamily} (stable : ∀ item ∈ items, add closed item = closed) {family : SetFamily}
    (included : Included family closed) : Included (items.foldl add family) closed := by
  induction items generalizing family with
  | nil => exact included
  | cons first later induction =>
      rcases List.forall_mem_cons.mp stable with ⟨same, laterStable⟩
      apply induction laterStable
      have next := keeps first family closed included
      rwa [same] at next

theorem included_saturate_of_subset (adds : ∀ family item, Included family (add family item))
    (keeps : KeepsInclusion add) {items others : List α} (subset : items ⊆ others)
    (seed : SetFamily) :
    Included (saturate (items.foldl add ·) (included_foldl adds items) seed)
      (saturate (others.foldl add ·) (included_foldl adds others) seed) := by
  have closed := round_saturate (others.foldl add ·) (included_foldl adds others) seed
  have stable := add_eq_of_foldl_eq adds closed
  apply saturate_induction (included_foldl adds items) (Included · _)
  · intro family included
    exact included_foldl_of_closed keeps (fun item member => stable item (subset member)) included
  · exact included_saturate _ _ seed

theorem saturate_perm (adds : ∀ family item, Included family (add family item))
    (keeps : KeepsInclusion add) {items others : List α} (reordered : items.Perm others)
    (seed : SetFamily) :
    saturate (items.foldl add ·) (included_foldl adds items) seed =
      saturate (others.foldl add ·) (included_foldl adds others) seed :=
  (included_saturate_of_subset adds keeps reordered.subset seed).antisymm
    (included_saturate_of_subset adds keeps reordered.symm.subset seed)

end Rounds

theorem extend_right_comm (family : SetFamily) (left right : Symbol) (added more : SymbolSet) :
    (family.extend left added).extend right more = (family.extend right more).extend left added := by
  apply PerSymbol.ext
  intro symbol
  apply SymbolSet.ext
  intro slot
  simp only [contains_get_extend]
  exact Bool.or_right_comm _ _ _

end SetFamily

open Stencil.SetFamily

variable {rules others : List Rule}

/-! ## FIRST -/

namespace FirstSets

theorem keepsInclusion_addRule : KeepsInclusion addRule := by
  intro rule smaller larger included
  apply included.extend
  intro slot
  unfold beginnings
  split
  · exact id
  · exact included rule.head slot

theorem ofRules_perm (reordered : rules.Perm others) : ofRules rules = ofRules others :=
  saturate_perm (fun _ _ => included_extend _ _ _) keepsInclusion_addRule reordered _

end FirstSets

/-! ## FOLLOW -/

namespace FollowSets

variable (first : SetFamily)

theorem included_addSymbols_of_included {smaller larger : SetFamily}
    (included : Included smaller larger) (lhs : Symbol) (symbols : List Symbol) :
    Included (addSymbols first lhs smaller symbols) (addSymbols first lhs larger symbols) := by
  induction symbols generalizing smaller larger with
  | nil => exact included
  | cons symbol after induction =>
      have within : ∀ slot, (behind first lhs smaller after).contains slot = true →
          (behind first lhs larger after).contains slot = true := by
        intro slot
        cases after with
        | nil => exact included lhs slot
        | cons next later => exact id
      rw [addSymbols_cons, addSymbols_cons]
      apply induction
      split
      · exact included
      · exact included.extend symbol within

theorem keepsInclusion_addRule : KeepsInclusion (addRule first) :=
  fun rule _ _ included => included_addSymbols_of_included first included rule.lhs rule.rhs

theorem ofRules_perm (reordered : rules.Perm others) (start : Symbol) :
    ofRules first rules start = ofRules first others start := by
  have adds : ∀ family rule, Included family (addRule first family rule) :=
    fun family rule => included_addSymbols first rule.lhs rule.rhs family
  exact saturate_perm adds (keepsInclusion_addRule first) reordered _

end FollowSets

/-! ## PRECEDE -/

namespace LeftSets

theorem keepsInclusion_addRule : KeepsInclusion addRule :=
  fun rule _ _ included => included.extend rule.lhs (included rule.head)

theorem ofRules_perm (reordered : rules.Perm others) : ofRules rules = ofRules others :=
  saturate_perm (fun _ _ => included_extend _ _ _) keepsInclusion_addRule reordered _

end LeftSets

namespace PrecedeSets

variable (left precede : SetFamily)

theorem extendAll_extend (symbols : List Symbol) (added : SymbolSet) (symbol : Symbol)
    (more : SymbolSet) :
    extendAll (precede.extend symbol more) symbols added =
      (extendAll precede symbols added).extend symbol more := by
  induction symbols generalizing precede with
  | nil => rfl
  | cons next later induction =>
      change extendAll ((precede.extend symbol more).extend next added) later added = _
      rw [extend_right_comm, induction]
      rfl

theorem addNeighbours_extend (symbols : List Symbol) (symbol : Symbol) (more : SymbolSet) :
    addNeighbours left (precede.extend symbol more) symbols =
      (addNeighbours left precede symbols).extend symbol more := by
  fun_induction addNeighbours left precede symbols with
  | case1 precede below next later induction =>
      rw [addNeighbours, extendAll_extend, induction]
  | case2 precede symbols short =>
      rw [addNeighbours]
      exact short

theorem addNeighbours_extendAll (symbols neighbours : List Symbol) (added : SymbolSet) :
    addNeighbours left (extendAll precede symbols added) neighbours =
      extendAll (addNeighbours left precede neighbours) symbols added := by
  induction symbols generalizing precede with
  | nil => rfl
  | cons next later induction =>
      change addNeighbours left (extendAll (precede.extend next added) later added) neighbours = _
      rw [induction, addNeighbours_extend]
      rfl

theorem addNeighbours_right_comm (symbols neighbours : List Symbol) :
    addNeighbours left (addNeighbours left precede symbols) neighbours =
      addNeighbours left (addNeighbours left precede neighbours) symbols := by
  fun_induction addNeighbours left precede symbols with
  | case1 precede below next later induction =>
      rw [induction, addNeighbours_extendAll, addNeighbours]
  | case2 precede symbols short =>
      rw [addNeighbours.eq_def left _ precede]
      split
      · exact absurd rfl (short _ _ _)
      · rfl

theorem seed_perm (reordered : rules.Perm others) (start : Symbol) :
    seed left rules start = seed left others start := by
  apply reordered.foldl_eq'
  intro rule _ other _ family
  exact addNeighbours_right_comm left family rule.rhs other.rhs

theorem included_extendAll_of_included {smaller larger : SetFamily}
    (included : Included smaller larger) (symbols : List Symbol) {fewer more : SymbolSet}
    (within : ∀ slot, fewer.contains slot = true → more.contains slot = true) :
    Included (extendAll smaller symbols fewer) (extendAll larger symbols more) := by
  induction symbols generalizing smaller larger with
  | nil => exact included
  | cons symbol later induction => exact induction (included.extend symbol within)

theorem keepsInclusion_addRule : KeepsInclusion (addRule left) :=
  fun rule _ _ included => included_extendAll_of_included included _ (included rule.lhs)

theorem ofRules_perm (reordered : rules.Perm others) (start : Symbol) :
    ofRules rules start = ofRules others start := by
  simp only [ofRules, LeftSets.ofRules_perm reordered, seed_perm _ reordered]
  have adds : ∀ family rule, Included family (addRule (LeftSets.ofRules others) family rule) :=
    fun family rule => included_extendAll _ family _
  exact saturate_perm adds (keepsInclusion_addRule _) reordered _

end PrecedeSets

/-! ## Unit rules -/

namespace UnitRules

theorem Leads.of_perm (reordered : rules.Perm others) {symbol phrase : Symbol}
    (leads : Leads rules symbol phrase) : Leads others symbol phrase := by
  rcases leads with ⟨rule, member, unit⟩
  exact ⟨rule, reordered.mem_iff.mp member, unit⟩

theorem firstCyclic?_eq_none_of_perm (reordered : rules.Perm others)
    (acyclic : firstCyclic? rules = none) : firstCyclic? others = none := by
  rw [firstCyclic?_eq_none_iff] at acyclic ⊢
  intro symbol cyclic
  have same : Leads others ≤ Leads rules := fun _ _ leads => leads.of_perm reordered.symm
  exact acyclic symbol (Relation.TransGen.mono same symbol symbol cyclic)

end UnitRules

/-! ## Grammars -/

namespace Grammar

variable {grammar other : Grammar}

theorem surroundings_perm (reordered : grammar.rules.Perm other.rules)
    (start : grammar.start = other.start) : grammar.surroundings = other.surroundings := by
  simp only [surroundings, FirstSets.ofRules_perm reordered, FollowSets.ofRules_perm _ reordered,
    PrecedeSets.ofRules_perm reordered, start]

/-- Rules that pass the checks pass them in every order. If what completes a parse first stays the
same, so do the start symbol and all that surrounds the symbols. -/
theorem exists_ofRules_perm (accepted : ofRules rules = .ok grammar)
    (reordered : rules.Perm others)
    (start : (others.find? Rule.completesParse).map Rule.lhs =
      (rules.find? Rule.completesParse).map Rule.lhs) :
    ∃ other, ofRules others = .ok other ∧ other.start = grammar.start ∧
      other.surroundings = grammar.surroundings := by
  rcases ofRules_eq_ok_iff.mp accepted with rfl
  have defined : ∀ rule ∈ others, ∀ symbol ∈ rule.rhs,
      symbol.isTerminal = true ∨ ∃ other ∈ others, other.lhs = symbol := by
    intro rule member symbol used
    rcases grammar.defined rule (reordered.mem_iff.mpr member) symbol used with
      terminal | ⟨definition, defines, same⟩
    · exact .inl terminal
    · exact .inr ⟨definition, reordered.mem_iff.mp defines, same⟩
  have acyclic : UnitRules.firstCyclic? others = none :=
    UnitRules.firstCyclic?_eq_none_of_perm reordered grammar.acyclic
  let other : Grammar := ⟨others, grammar.start, start.trans grammar.start_eq, defined, acyclic⟩
  have same : grammar.surroundings = other.surroundings := surroundings_perm reordered rfl
  exact ⟨other, other.ofRules_rules, rfl, same.symm⟩

end Grammar

end Stencil
