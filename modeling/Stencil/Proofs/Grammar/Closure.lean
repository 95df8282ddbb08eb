import Stencil.Grammar.Basic

/-! # Closed families of sets

The sets of a grammar are reached by adding until nothing is new. What that says about single rules
is stated here: which symbols the sets must hold, whatever order they were added in.
-/

namespace Stencil

namespace SetFamily

theorem Included.antisymm {left right : SetFamily} (forward : Included left right)
    (backward : Included right left) : left = right := by
  apply PerSymbol.ext
  intro symbol
  apply SymbolSet.ext
  intro slot
  exact Bool.eq_iff_iff.mpr ⟨forward symbol slot, backward symbol slot⟩

theorem contains_of_extend_eq {family : SetFamily} {symbol : Symbol} {added : SymbolSet}
    (closed : family.extend symbol added = family) {slot : Option Symbol}
    (held : added.contains slot = true) : (family.get symbol).contains slot = true := by
  rw [← closed, contains_get_extend]
  simp [held]

theorem contains_extend_self (family : SetFamily) (symbol : Symbol) {added : SymbolSet}
    {slot : Option Symbol} (held : added.contains slot = true) :
    ((family.extend symbol added).get symbol).contains slot = true := by
  simp [contains_get_extend, held]

section Rounds

variable {α : Type} {add : SetFamily → α → SetFamily}

theorem add_eq_of_foldl_eq (adds : ∀ family item, Included family (add family item))
    {items : List α} {family : SetFamily} (closed : items.foldl add family = family) :
    ∀ item ∈ items, add family item = family := by
  induction items with
  | nil => simp
  | cons first later induction =>
      have back : Included (add family first) family := by
        have rest := included_foldl adds later (add family first)
        rwa [show later.foldl add (add family first) = family from closed] at rest
      have same : add family first = family := back.antisymm (adds family first)
      intro item member
      rcases List.mem_cons.mp member with equal | member
      · rw [equal, same]
      · have laterClosed : later.foldl add family = family := by
          rw [List.foldl_cons, same] at closed
          exact closed
        exact induction laterClosed item member

theorem exists_included_foldl (add : SetFamily → α → SetFamily)
    (adds : ∀ family item, Included family (add family item)) {items : List α} {item : α}
    (member : item ∈ items) (family : SetFamily) :
    ∃ earlier, Included family earlier ∧
      Included (add earlier item) (items.foldl add family) := by
  rcases List.append_of_mem member with ⟨before, after, rfl⟩
  refine ⟨before.foldl add family, included_foldl adds before family, ?_⟩
  rw [List.foldl_append, List.foldl_cons]
  exact included_foldl adds after _

end Rounds

theorem saturate_induction {round : SetFamily → SetFamily}
    (adds : ∀ family, Included family (round family)) (Holds : SetFamily → Prop)
    (keeps : ∀ family, Holds family → Holds (round family)) {family : SetFamily}
    (holds : Holds family) : Holds (saturate round adds family) := by
  fun_induction saturate round adds family with
  | case1 => exact holds
  | case2 family _ _ induction => exact induction (keeps family holds)

theorem add_saturate_eq {α : Type} (add : SetFamily → α → SetFamily)
    (adds : ∀ family item, Included family (add family item)) {items : List α} {item : α}
    (member : item ∈ items) (included : ∀ family, Included family (items.foldl add family))
    (family : SetFamily) :
    add (saturate (items.foldl add ·) included family) item =
      saturate (items.foldl add ·) included family :=
  add_eq_of_foldl_eq adds (round_saturate (items.foldl add ·) included family) item member

end SetFamily

open Stencil.SetFamily

/-! ## FIRST -/

namespace FirstSets

theorem beginnings_of_terminal (first : SetFamily) {symbol : Symbol}
    (terminal : symbol.isTerminal = true) : beginnings first symbol = .singleton symbol := by
  rw [beginnings, terminal, if_pos rfl]

theorem beginnings_of_phrase (first : SetFamily) {symbol : Symbol}
    (phrase : symbol.isTerminal = false) : beginnings first symbol = first.get symbol := by
  rw [beginnings, phrase, if_neg Bool.false_ne_true]

theorem contains_lhs {rules : List Rule} {rule : Rule} (member : rule ∈ rules)
    {slot : Option Symbol}
    (held : (beginnings (ofRules rules) rule.head).contains slot = true) :
    ((ofRules rules).get rule.lhs).contains slot = true := by
  have single : addRule (ofRules rules) rule = ofRules rules :=
    add_saturate_eq addRule (fun _ _ => included_extend _ _ _) member _ _
  exact contains_of_extend_eq single held

end FirstSets

/-! ## FOLLOW -/

namespace FollowSets

/-- What stands behind a symbol of a right-hand side, given the symbols that come after it. -/
def behind (first : SetFamily) (lhs : Symbol) (follow : SetFamily) : List Symbol → SymbolSet
  | next :: _ => FirstSets.beginnings first next
  | [] => follow.get lhs

theorem addSymbols_cons (first : SetFamily) (lhs : Symbol) (follow : SetFamily)
    (symbol : Symbol) (after : List Symbol) :
    addSymbols first lhs follow (symbol :: after) =
      addSymbols first lhs
        (if symbol.isTerminal then follow
          else follow.extend symbol (behind first lhs follow after)) after := by
  cases after <;> rfl

theorem head_eq_of_addSymbols_eq {first : SetFamily} {lhs : Symbol} {follow : SetFamily}
    {symbol : Symbol} {after : List Symbol}
    (closed : addSymbols first lhs follow (symbol :: after) = follow) :
    (if symbol.isTerminal then follow
      else follow.extend symbol (behind first lhs follow after)) = follow := by
  rw [addSymbols_cons] at closed
  apply Included.antisymm
  · have rest := included_addSymbols first lhs after
      (if symbol.isTerminal then follow
        else follow.extend symbol (behind first lhs follow after))
    rwa [closed] at rest
  · split
    · exact Included.refl follow
    · exact included_extend _ _ _

theorem contains_of_addSymbols_eq {first : SetFamily} {lhs : Symbol} {follow : SetFamily}
    {before : List Symbol} {symbol : Symbol} {after : List Symbol}
    (closed : addSymbols first lhs follow (before ++ symbol :: after) = follow)
    (phrase : symbol.isTerminal = false) {slot : Option Symbol}
    (held : (behind first lhs follow after).contains slot = true) :
    (follow.get symbol).contains slot = true := by
  induction before with
  | nil =>
      have same := head_eq_of_addSymbols_eq closed
      rw [phrase, if_neg Bool.false_ne_true] at same
      exact contains_of_extend_eq same held
  | cons head tail induction =>
      rw [List.cons_append] at closed
      have same := head_eq_of_addSymbols_eq closed
      rw [addSymbols_cons, same] at closed
      exact induction closed

theorem contains_symbol {first : SetFamily} {rules : List Rule} {start : Symbol} {rule : Rule}
    (member : rule ∈ rules) {before : List Symbol} {symbol : Symbol} {after : List Symbol}
    (split : rule.rhs = before ++ symbol :: after) (phrase : symbol.isTerminal = false)
    {slot : Option Symbol}
    (held : (behind first rule.lhs (ofRules first rules start) after).contains slot = true) :
    ((ofRules first rules start).get symbol).contains slot = true := by
  have single : addRule first (ofRules first rules start) rule = ofRules first rules start :=
    add_saturate_eq (addRule first) (fun _ _ => included_addSymbols _ _ _ _) member _ _
  rw [addRule, split] at single
  exact contains_of_addSymbols_eq single phrase held

theorem contains_start (first : SetFamily) (rules : List Rule) (start : Symbol) :
    ((ofRules first rules start).get start).contains none = true := by
  apply included_saturate (round first rules) (included_round first rules) (seed start)
  apply contains_extend_self
  simp

theorem get_addSymbols_of_not_mem {first : SetFamily} {lhs start : Symbol}
    {symbols : List Symbol} (unused : start ∉ symbols) (follow : SetFamily) :
    (addSymbols first lhs follow symbols).get start = follow.get start := by
  induction symbols generalizing follow with
  | nil => rfl
  | cons symbol after induction =>
      have different : symbol ≠ start := fun equal => unused (by simp [equal])
      have later : start ∉ after := fun member => unused (List.mem_cons_of_mem symbol member)
      rw [addSymbols_cons, induction later]
      split
      · rfl
      · exact PerSymbol.get_set_of_ne follow _ different

theorem eq_none_of_contains_start {first : SetFamily} {rules : List Rule} {start : Symbol}
    (unused : ∀ rule ∈ rules, start ∉ rule.rhs) {slot : Option Symbol}
    (held : ((ofRules first rules start).get start).contains slot = true) : slot = none := by
  have seeded : (seed start).get start = SymbolSet.empty.union SymbolSet.empty.insertBoundary := by
    simp [seed, extend, PerSymbol.get_set_self]
  have same : (ofRules first rules start).get start = (seed start).get start := by
    apply saturate_induction (included_round first rules)
      (fun family => family.get start = (seed start).get start) _ rfl
    intro family holds
    rw [← holds]
    unfold round
    clear holds held
    induction rules generalizing family with
    | nil => rfl
    | cons rule later induction =>
        rw [List.foldl_cons, induction (fun other member => unused other (by simp [member]))]
        exact get_addSymbols_of_not_mem (unused rule (by simp)) family
  rw [same, seeded] at held
  simpa using held

end FollowSets

/-! ## PRECEDE -/

namespace LeftSets

theorem contains_self (rules : List Rule) (symbol : Symbol) :
    ((ofRules rules).get symbol).contains (some symbol) = true := by
  apply included_saturate (round rules) (included_round rules)
  simp

theorem contains_lhs {rules : List Rule} {rule : Rule} (member : rule ∈ rules)
    {slot : Option Symbol} (held : ((ofRules rules).get rule.head).contains slot = true) :
    ((ofRules rules).get rule.lhs).contains slot = true := by
  have single : addRule (ofRules rules) rule = ofRules rules :=
    add_saturate_eq addRule (fun _ _ => included_extend _ _ _) member _ _
  exact contains_of_extend_eq single held

end LeftSets

namespace PrecedeSets

theorem contains_extendAll {symbols : List Symbol} {symbol : Symbol} (member : symbol ∈ symbols)
    (precede : SetFamily) {added : SymbolSet} {slot : Option Symbol}
    (held : added.contains slot = true) :
    ((extendAll precede symbols added).get symbol).contains slot = true := by
  rcases exists_included_foldl
    (fun family symbol => family.extend symbol added)
    (fun _ _ => included_extend _ _ _) member precede with ⟨earlier, _, later⟩
  exact later symbol slot (contains_extend_self earlier symbol held)

theorem included_addNeighbours (left : SetFamily) (symbols : List Symbol)
    (precede : SetFamily) : Included precede (addNeighbours left precede symbols) := by
  fun_induction addNeighbours left precede symbols with
  | case1 _ _ _ _ induction => exact (included_extendAll _ _ _).trans induction
  | case2 => exact Included.refl _

theorem contains_addNeighbours {left : SetFamily} {below symbol : Symbol}
    (leads : (left.get symbol).contains (some symbol) = true) (before after : List Symbol)
    (precede : SetFamily) :
    ((addNeighbours left precede (before ++ below :: symbol :: after)).get symbol).contains
      (some below) = true := by
  induction before generalizing precede with
  | nil =>
      rw [List.nil_append, addNeighbours]
      apply included_addNeighbours
      apply contains_extendAll ((SymbolSet.mem_toList _ _).mpr leads)
      simp
  | cons head tail induction =>
      cases tail with
      | nil =>
          rw [List.cons_append, List.nil_append, addNeighbours]
          exact induction _
      | cons second rest =>
          rw [List.cons_append, List.cons_append, addNeighbours]
          exact induction _

theorem contains_start (rules : List Rule) (start : Symbol) :
    ((ofRules rules start).get start).contains none = true := by
  apply included_saturate
  have kept := included_foldl
    (fun family (rule : Rule) => included_addNeighbours (LeftSets.ofRules rules) rule.rhs family)
    rules (extendAll (.replicate .empty) ((LeftSets.ofRules rules).get start).toList
      SymbolSet.empty.insertBoundary)
  apply kept
  apply contains_extendAll ((SymbolSet.mem_toList _ _).mpr (LeftSets.contains_self rules start))
  simp

theorem contains_neighbour {rules : List Rule} {start : Symbol} {rule : Rule}
    (member : rule ∈ rules) {before : List Symbol} {below symbol : Symbol} {after : List Symbol}
    (split : rule.rhs = before ++ below :: symbol :: after) :
    ((ofRules rules start).get symbol).contains (some below) = true := by
  apply included_saturate
  rcases exists_included_foldl
    (fun precede (rule : Rule) => addNeighbours (LeftSets.ofRules rules) precede rule.rhs)
    (fun family rule => included_addNeighbours _ rule.rhs family) member
    (extendAll (.replicate .empty) ((LeftSets.ofRules rules).get start).toList
      SymbolSet.empty.insertBoundary) with ⟨earlier, _, later⟩
  apply later
  rw [split]
  exact contains_addNeighbours (LeftSets.contains_self rules symbol) before after earlier

theorem contains_head {rules : List Rule} {start : Symbol} {rule : Rule}
    (member : rule ∈ rules) {slot : Option Symbol}
    (held : ((ofRules rules start).get rule.lhs).contains slot = true) :
    ((ofRules rules start).get rule.head).contains slot = true := by
  have single : addRule (LeftSets.ofRules rules) (ofRules rules start) rule =
      ofRules rules start :=
    add_saturate_eq (addRule _) (fun _ _ => included_extendAll _ _ _) member _ _
  rw [← single]
  exact contains_extendAll
    ((SymbolSet.mem_toList _ _).mpr (LeftSets.contains_self rules rule.head)) _ held

end PrecedeSets

/-! ## The sets of a grammar -/

namespace Grammar

variable (grammar : Grammar) {rule : Rule} {symbol : Symbol} {slot : Option Symbol}

theorem first_terminal (terminal : symbol.isTerminal = true) :
    (grammar.surroundings.first.get symbol).contains (some symbol) = true := by
  simp [surroundings, FirstSets.beginnings_of_terminal _ terminal]

theorem first_lhs (member : rule ∈ grammar.rules) (phrase : rule.lhs.isTerminal = false)
    (held : (grammar.surroundings.first.get rule.head).contains slot = true) :
    (grammar.surroundings.first.get rule.lhs).contains slot = true := by
  simp only [surroundings, PerSymbol.get_ofFn] at held ⊢
  rw [FirstSets.beginnings_of_phrase _ phrase]
  exact FirstSets.contains_lhs member held

theorem follow_start : (grammar.surroundings.follow.get grammar.start).contains none = true :=
  FollowSets.contains_start _ _ _

theorem follow_inner (member : rule ∈ grammar.rules) {before : List Symbol} {next : Symbol}
    {after : List Symbol} (split : rule.rhs = before ++ symbol :: next :: after)
    (phrase : symbol.isTerminal = false)
    (held : (grammar.surroundings.first.get next).contains slot = true) :
    (grammar.surroundings.follow.get symbol).contains slot = true := by
  apply FollowSets.contains_symbol member split phrase
  simpa [surroundings, FollowSets.behind] using held

theorem follow_last (member : rule ∈ grammar.rules) {before : List Symbol}
    (split : rule.rhs = before ++ [symbol]) (phrase : symbol.isTerminal = false)
    (held : (grammar.surroundings.follow.get rule.lhs).contains slot = true) :
    (grammar.surroundings.follow.get symbol).contains slot = true :=
  FollowSets.contains_symbol member split phrase held

theorem follow_start_only (unused : ∀ rule ∈ grammar.rules, grammar.start ∉ rule.rhs)
    (held : (grammar.surroundings.follow.get grammar.start).contains slot = true) :
    slot = none :=
  FollowSets.eq_none_of_contains_start unused held

theorem precede_start : (grammar.surroundings.precede.get grammar.start).contains none = true :=
  PrecedeSets.contains_start _ _

theorem precede_neighbour (member : rule ∈ grammar.rules) {before : List Symbol}
    {below : Symbol} {after : List Symbol}
    (split : rule.rhs = before ++ below :: symbol :: after) :
    (grammar.surroundings.precede.get symbol).contains (some below) = true :=
  PrecedeSets.contains_neighbour member split

theorem precede_head (member : rule ∈ grammar.rules)
    (held : (grammar.surroundings.precede.get rule.lhs).contains slot = true) :
    (grammar.surroundings.precede.get rule.head).contains slot = true :=
  PrecedeSets.contains_head member held

end Grammar

end Stencil
