import Stencil.Table.Decision

/-! # What a decision says

An item fits if the next token of the input, the elements of the stack that its rule names and the
element below them are all as the item wants them. Looking for fitting items pops elements one
level at a time; what is found does not depend on that, and the stack is handed back as it was.
-/

namespace Stencil

/-- The item fits a stack, given by the kinds of its elements from the top down. -/
def Item.Fits (item : Item) (lookahead : Option Symbol) (kinds : List Symbol) : Prop :=
  item.lookaheads.contains lookahead = true ∧
    ∃ below, kinds = item.expected ++ below ∧ item.mayStartAbove below.head? = true

namespace Table

def Candidate.Fits (candidate : Candidate) (kinds : List Symbol) : Prop :=
  candidate.expected ≠ [] ∧
    ∃ below, kinds = candidate.expected ++ below ∧
      candidate.item.mayStartAbove below.head? = true

/-! ## One level -/

def Candidate.endsAt (actual below : Option Symbol) (candidate : Candidate) : Bool :=
  candidate.expected.map some = [actual] && candidate.item.mayStartAbove below

def Candidate.advance? (actual : Option Symbol) (candidate : Candidate) : Option Candidate :=
  match candidate.expected with
  | symbol :: next :: deeper =>
    if actual = some symbol then some ⟨candidate.item, next :: deeper⟩ else none
  | _ => none

theorem fitting_sift (actual below : Option Symbol) (depth : Nat) (findings : Findings)
    (candidates : List Candidate) :
    (sift actual below depth findings candidates).2.fitting =
      findings.fitting ++
        (candidates.filter (Candidate.endsAt actual below)).map Candidate.item := by
  fun_induction sift actual below depth findings candidates with
  | case1 => simp
  | case2 findings candidate later used induction =>
      simp [induction, Candidate.endsAt, used]
  | case3 findings candidate later expected deeper used differs induction =>
      have other : ¬some expected = actual := fun equal => differs equal.symm
      simp [induction, Candidate.endsAt, used, other]
  | case4 findings candidate later expected deeper used shown more kept found _ induction =>
      simp_all [Candidate.endsAt]
  | case5 findings candidate later expected deeper used shown last starts induction =>
      simp_all [Candidate.endsAt]
  | case6 findings candidate later expected deeper used shown last bars induction =>
      simp_all [Candidate.endsAt]

theorem kept_sift (actual below : Option Symbol) (depth : Nat) (findings : Findings)
    (candidates : List Candidate) :
    (sift actual below depth findings candidates).1 =
      candidates.filterMap (Candidate.advance? actual) := by
  fun_induction sift actual below depth findings candidates with
  | case1 => rfl
  | case2 findings candidate later used induction =>
      simp [induction, Candidate.advance?, used]
  | case3 findings candidate later expected deeper used differs induction =>
      cases deeper <;> simp [induction, Candidate.advance?, used, differs]
  | case4 findings candidate later expected deeper used shown more kept found _ induction =>
      cases deeper <;> simp_all [Candidate.advance?]
  | case5 findings candidate later expected deeper used shown last starts induction =>
      simp_all [Candidate.advance?]
  | case6 findings candidate later expected deeper used shown last bars induction =>
      simp_all [Candidate.advance?]

theorem Candidate.fits_cons (candidate : Candidate) (symbol : Symbol) (kinds : List Symbol) :
    candidate.Fits (symbol :: kinds) ↔
      candidate.endsAt (some symbol) kinds.head? = true ∨
        ∃ deeper, candidate.advance? (some symbol) = some deeper ∧ deeper.Fits kinds := by
  rcases candidate with ⟨item, expected⟩
  match expected with
  | [] => simp [Fits, endsAt, advance?]
  | [last] =>
      simp only [Fits, endsAt, advance?]
      simp only [reduceCtorEq, false_and, exists_false, or_false]
      constructor
      · intro fits
        rcases fits with ⟨_, below, split, starts⟩
        simp only [List.cons_append, List.nil_append, List.cons.injEq] at split
        rcases split with ⟨rfl, rfl⟩
        simpa using starts
      · intro ends
        simp only [List.map_cons, List.map_nil, List.cons.injEq, Option.some.injEq, and_true,
          Bool.and_eq_true, decide_eq_true_eq] at ends
        rcases ends with ⟨rfl, starts⟩
        exact ⟨by simp, kinds, rfl, starts⟩
  | first :: next :: deeper =>
      simp only [Fits, endsAt, advance?]
      constructor
      · intro fits
        rcases fits with ⟨_, below, split, starts⟩
        simp only [List.cons_append, List.cons.injEq] at split
        rcases split with ⟨rfl, rfl⟩
        exact .inr ⟨⟨item, next :: deeper⟩, by simp, by simp, below, rfl, starts⟩
      · intro level
        rcases level with ends | ⟨_, advanced, _, below, split, starts⟩
        · simp at ends
        · split at advanced
          · rename_i shown
            rcases Option.some.inj shown with rfl
            rcases Option.some.inj advanced with rfl
            exact ⟨by simp, below, by rw [split]; rfl, starts⟩
          · cases advanced

/-! ## All levels -/

theorem Candidate.length_advance? {actual : Option Symbol} {candidate deeper : Candidate}
    (advanced : candidate.advance? actual = some deeper) :
    candidate.expected.length = deeper.expected.length + 1 := by
  unfold advance? at advanced
  split at advanced
  · split at advanced
    · rcases Option.some.inj advanced with rfl
      simp_all
    · cases advanced
  · cases advanced

theorem Candidate.item_advance? {actual : Option Symbol} {candidate deeper : Candidate}
    (advanced : candidate.advance? actual = some deeper) : deeper.item = candidate.item := by
  unfold advance? at advanced
  split at advanced
  · split at advanced
    · rw [← Option.some.inj advanced]
    · cases advanced
  · cases advanced

theorem Candidate.not_fits_nil (candidate : Candidate) : ¬candidate.Fits [] := by
  intro fits
  rcases fits with ⟨nonempty, below, split, _⟩
  exact nonempty (List.append_eq_nil_iff.mp split.symm).1

theorem Candidate.advance?_none (candidate : Candidate) : candidate.advance? none = none := by
  unfold advance?
  split <;> simp

theorem length_of_mem_sift {actual below : Option Symbol} {depth levels : Nat}
    {findings : Findings} {candidates : List Candidate} {candidate : Candidate}
    (short : ∀ candidate ∈ candidates, candidate.expected.length ≤ levels + 1)
    (kept : candidate ∈ (sift actual below depth findings candidates).1) :
    candidate.expected.length ≤ levels := by
  rw [kept_sift] at kept
  rcases List.mem_filterMap.mp kept with ⟨earlier, member, advanced⟩
  have bound := short earlier member
  have length := Candidate.length_advance? advanced
  omega

/-- The candidates that fit are those that end at a level and those kept that fit below it. Behind
the last element there is nothing to show. -/
theorem mem_fitting_sift {actual : Option Symbol} {kinds : List Symbol}
    (bottom : actual = none → kinds = []) (depth : Nat) (findings : Findings)
    (candidates : List Candidate) (item : Item) :
    (item ∈ (sift actual kinds.head? depth findings candidates).2.fitting ∨
      ∃ candidate ∈ (sift actual kinds.head? depth findings candidates).1,
        candidate.item = item ∧ candidate.Fits kinds) ↔
    item ∈ findings.fitting ∨ ∃ candidate ∈ candidates, candidate.item = item ∧
      candidate.Fits (actual.toList ++ kinds) := by
  rw [fitting_sift, kept_sift]
  simp only [List.mem_append, List.mem_map, List.mem_filter, List.mem_filterMap]
  cases actual with
  | none =>
      rw [bottom rfl]
      simp [Candidate.endsAt, Candidate.advance?_none, Candidate.not_fits_nil]
  | some symbol =>
      simp only [Option.toList_some, List.singleton_append, Candidate.fits_cons]
      constructor
      · intro fitting
        rcases fitting with (found | ⟨candidate, ⟨member, ends⟩, same⟩) |
          ⟨later, ⟨candidate, member, advanced⟩, same, fits⟩
        · exact .inl found
        · exact .inr ⟨candidate, member, same, .inl ends⟩
        · have own := Candidate.item_advance? advanced
          exact .inr ⟨candidate, member, own.symm.trans same, .inr ⟨later, advanced, fits⟩⟩
      · intro fitting
        rcases fitting with found | ⟨candidate, member, same, ends | ⟨later, advanced, fits⟩⟩
        · exact .inl (.inl found)
        · exact .inl (.inr ⟨candidate, ⟨member, ends⟩, same⟩)
        · have own := Candidate.item_advance? advanced
          exact .inr ⟨later, ⟨candidate, member, advanced⟩, own.trans same, fits⟩

theorem mem_fitting_search {levels : Nat} {actual : Option Symbol} {depth : Nat}
    {candidates : List Candidate} {stack : UndoStack Token} {findings : Findings}
    (short : ∀ candidate ∈ candidates, candidate.expected.length ≤ levels)
    (bottom : actual = none → stack.elements = []) (item : Item) :
    item ∈ (search levels actual depth candidates stack findings).1.fitting ↔
      item ∈ findings.fitting ∨ ∃ candidate ∈ candidates, candidate.item = item ∧
        candidate.Fits (actual.toList ++ stack.elements.map Token.kind) := by
  induction levels generalizing actual depth candidates stack findings with
  | zero =>
      simp only [search]
      have none : ∀ candidate ∈ candidates, ∀ kinds, ¬candidate.Fits kinds := by
        intro candidate member kinds fits
        exact fits.1 (List.eq_nil_of_length_eq_zero (Nat.le_zero.mp (short candidate member)))
      constructor
      · exact .inl
      · intro fitting
        rcases fitting with found | ⟨candidate, member, _, fits⟩
        · exact found
        · exact absurd fits (none candidate member _)
  | succ fewer induction =>
      have shown : stack.peek?.map Token.kind = (stack.elements.map Token.kind).head? := by
        simp [UndoStack.peek?]
      have nothing : actual = none → stack.elements.map Token.kind = [] := fun none => by
        rw [bottom none, List.map_nil]
      have level := mem_fitting_sift nothing depth findings candidates item
      have keptShort : ∀ candidate ∈ (sift actual (stack.elements.map Token.kind).head? depth
          findings candidates).1, candidate.expected.length ≤ fewer :=
        fun _ => length_of_mem_sift short
      rw [search, shown, ← level]
      generalize sift actual (stack.elements.map Token.kind).head? depth findings candidates =
        sifted at keptShort
      rcases sifted with ⟨kept, found⟩
      -- Without kept candidates the search stops here, which loses nothing.
      dsimp only
      split
      · rename_i empty
        simp [List.isEmpty_iff.mp empty]
      · rw [induction keptShort]
        · cases elements : stack.elements <;> simp [UndoStack.pop, elements]
        · intro none
          cases elements : stack.elements <;> simp_all [UndoStack.pop]

/-! ## The conclusion -/

theorem mem_actions {items : List Item} {action : Action} :
    action ∈ actions items ↔ ∃ item ∈ items, item.action = action := by
  have general : ∀ (pending seen : List Action),
      action ∈ pending.foldl
        (fun actions action => if actions.contains action then actions else actions ++ [action])
        seen ↔ action ∈ seen ∨ action ∈ pending := by
    intro pending
    induction pending with
    | nil => simp
    | cons first later induction =>
        intro seen
        rw [List.foldl_cons, induction]
        split
        · rename_i known
          have known : first ∈ seen := by simpa using known
          grind
        · grind
  rw [actions, general]
  simp

theorem actions_eq_singleton {items : List Item} {action : Action} (nonempty : items ≠ [])
    (agree : ∀ item ∈ items, item.action = action) : actions items = [action] := by
  have general : ∀ later : List Item, (∀ item ∈ later, item.action = action) →
      (later.map Item.action).foldl
        (fun actions action => if actions.contains action then actions else actions ++ [action])
        [action] = [action] := by
    intro later
    induction later with
    | nil => simp
    | cons item rest induction =>
        intro agree
        rw [List.map_cons, List.foldl_cons, agree item (by simp), if_pos (by simp)]
        exact induction fun other member => agree other (by simp [member])
  match items with
  | first :: later =>
      rw [actions, List.map_cons, List.foldl_cons, agree first (by simp)]
      exact general later fun item member => agree item (by simp [member])

theorem conclude_of_agree (top : Symbol) {findings : Findings} {action : Action}
    (nonempty : findings.fitting ≠ [])
    (agree : ∀ item ∈ findings.fitting, item.action = action) :
    conclude top findings = .ok action := by
  simp [conclude, actions_eq_singleton nonempty agree]

theorem conclude_of_disagree (top : Symbol) {findings : Findings} {left right : Item}
    (leftMember : left ∈ findings.fitting) (rightMember : right ∈ findings.fitting)
    (differ : left.action ≠ right.action) :
    conclude top findings = .error (.ambiguous top findings.fitting) := by
  have leftAction := mem_actions.mpr ⟨left, leftMember, rfl⟩
  have rightAction := mem_actions.mpr ⟨right, rightMember, rfl⟩
  unfold conclude
  split
  · rename_i action single
    rw [single, List.mem_singleton] at leftAction rightAction
    exact absurd (leftAction.trans rightAction.symm) differ
  · rename_i none
    rw [none] at leftAction
    cases leftAction
  · rfl

theorem exists_of_conclude_eq_ok {top : Symbol} {findings : Findings} {action : Action}
    (concluded : conclude top findings = .ok action) :
    ∃ item ∈ findings.fitting, item.action = action := by
  unfold conclude at concluded
  split at concluded
  · rename_i only single
    rcases Except.ok.inj concluded with rfl
    exact mem_actions.mp (by simp [single])
  · cases concluded
  · cases concluded

theorem action_of_conclude_eq_ok {top : Symbol} {findings : Findings} {action : Action}
    (concluded : conclude top findings = .ok action) {item : Item}
    (found : item ∈ findings.fitting) : item.action = action := by
  rcases exists_of_conclude_eq_ok concluded with ⟨chosen, chosenFound, rfl⟩
  by_cases same : item.action = chosen.action
  · exact same
  · rw [conclude_of_disagree top found chosenFound same] at concluded
    cases concluded

/-! ## Among several items -/

def findingsAmong (items : List Item) (top : Symbol) (lookahead : Option Symbol)
    (stack : UndoStack Token) : Findings :=
  let (fitting, findings) := siftLookahead lookahead items
  let levels := (fitting.map (·.expected.length)).foldl max 0
  (search levels (some top) 0 (fitting.map fun item => ⟨item, item.expected⟩) stack findings).1

theorem decideAmong_fst (items : List Item) (top : Symbol) (lookahead : Option Symbol)
    (stack : UndoStack Token) :
    (decideAmong items top lookahead stack).1 =
      conclude top (findingsAmong items top lookahead stack) := rfl

theorem le_foldl_max {lengths : List Nat} {length : Nat} (member : length ∈ lengths)
    (least : Nat) : length ≤ lengths.foldl max least := by
  have grows : ∀ (lengths : List Nat) (least : Nat), least ≤ lengths.foldl max least := by
    intro lengths
    induction lengths with
    | nil => exact fun least => Nat.le_refl least
    | cons first later induction =>
        exact fun least => Nat.le_trans (Nat.le_max_left least first) (induction _)
  induction lengths generalizing least with
  | nil => cases member
  | cons first later induction =>
      rcases List.mem_cons.mp member with rfl | member
      · exact Nat.le_trans (Nat.le_max_right least length) (grows later _)
      · exact induction member _

theorem mem_findingsAmong {items : List Item} {top : Symbol} {lookahead : Option Symbol}
    {stack : UndoStack Token} {item : Item} :
    item ∈ (findingsAmong items top lookahead stack).fitting ↔
      item ∈ items ∧ item.Fits lookahead (top :: stack.elements.map Token.kind) := by
  rw [findingsAmong, siftLookahead]
  rw [mem_fitting_search]
  · simp only [List.not_mem_nil, false_or, List.mem_map, List.mem_filter, Option.toList_some,
      List.singleton_append]
    constructor
    · intro found
      rcases found with ⟨_, ⟨own, ⟨member, next⟩, rfl⟩, rfl, _, fits⟩
      exact ⟨member, next, fits⟩
    · intro found
      rcases found with ⟨member, next, fits⟩
      exact ⟨_, ⟨item, ⟨member, next⟩, rfl⟩, rfl, by simp [Item.expected], fits⟩
  · intro candidate member
    rcases List.mem_map.mp member with ⟨own, ownMember, rfl⟩
    have length := List.mem_map_of_mem (f := fun item : Item => item.expected.length) ownMember
    exact le_foldl_max length 0
  · simp

/-! ## The stack afterwards -/

theorem timeline_search (levels : Nat) (actual : Option Symbol) (depth : Nat)
    (candidates : List Candidate) (stack : UndoStack Token) (findings : Findings) :
    (search levels actual depth candidates stack findings).2.timeline = stack.timeline := by
  induction levels generalizing actual depth candidates stack findings with
  | zero => rfl
  | succ fewer induction =>
      rw [search]
      dsimp only
      split
      · rfl
      · rw [induction, UndoStack.timeline_pop]

theorem timeline_probe (table : Table) (stack : UndoStack Token) (lookahead : Option Symbol) :
    (table.probe stack lookahead).2.timeline = stack.timeline := by
  have popped := UndoStack.timeline_pop stack
  unfold probe
  split <;> rename_i equation <;> rw [equation] at popped
  · exact popped
  · split
    · exact popped
    · exact popped
    · exact (timeline_search _ _ _ _ _ _).trans popped

theorem decide_snd (table : Table) (elements : List Token) (lookahead : Option Symbol) :
    (table.decide ⟨elements, []⟩ lookahead).2 = ⟨elements, []⟩ := by
  change (table.probe ⟨elements, []⟩ lookahead).2.undoAll = _
  rw [UndoStack.undoAll_eq, timeline_probe]
  simp [UndoStack.timeline, UndoStack.toList]

/-! ## The decision -/

section Decisions

variable {table : Table} {top : Token} {below : List Token} {lookahead : Option Symbol}

theorem decide_of_single {item : Item} (single : table.items.get top.kind = [item]) :
    (table.decide ⟨top :: below, []⟩ lookahead).1 =
      decideAlone item lookahead (below.head?.map Token.kind) := by
  change (table.probe ⟨top :: below, []⟩ lookahead).1 = _
  simp [probe, UndoStack.pop, single, UndoStack.peek?]

theorem decide_of_several {first second : Item} {more : List Item}
    (several : table.items.get top.kind = first :: second :: more) :
    (table.decide ⟨top :: below, []⟩ lookahead).1 =
      conclude top.kind (findingsAmong (table.items.get top.kind) top.kind lookahead
        ⟨below, [top]⟩) := by
  change (table.probe ⟨top :: below, []⟩ lookahead).1 = _
  simp only [probe, UndoStack.pop, several]
  rw [decideAmong_fst]

theorem decideAlone_of_contains {item : Item} (next : item.lookaheads.contains lookahead = true)
    (below : Option Symbol) :
    decideAlone item lookahead below =
      if item.endsAt 0 && !item.mayStartAbove below then
        .error (.unexpectedBelow item.rule.lhs below)
      else .ok item.action := by
  rw [decideAlone, Item.checkLookahead, if_pos next]
  rfl

theorem decideAlone_of_fits {item : Item} {kinds : List Symbol}
    (fits : item.Fits lookahead (top.kind :: kinds)) :
    decideAlone item lookahead kinds.head? = .ok item.action := by
  rcases fits with ⟨next, below, split, starts⟩
  have reached : (item.endsAt 0 && !item.mayStartAbove kinds.head?) = false := by
    cases inner : item.below with
    | nil =>
        have same : kinds = below := by
          rw [Item.expected, inner] at split
          exact (List.cons.inj split).2
        simp [same, starts]
    | cons => simp [Item.endsAt, inner]
  rw [decideAlone_of_contains next, reached, if_neg Bool.false_ne_true]

theorem decideAlone_of_not_contains {item : Item}
    (unexpected : item.lookaheads.contains lookahead = false) (below : Option Symbol) :
    decideAlone item lookahead below =
      .error (.unexpectedLookahead item.focus item.lookaheads lookahead) := by
  rw [decideAlone, Item.checkLookahead, if_neg (by rw [unexpected]; exact Bool.false_ne_true)]
  rfl

theorem decide_eq_ok_of_fits {item : Item} (member : item ∈ table.items.get top.kind)
    (fits : item.Fits lookahead (top.kind :: below.map Token.kind))
    (agree : ∀ other ∈ table.items.get top.kind,
      other.Fits lookahead (top.kind :: below.map Token.kind) → other.action = item.action) :
    (table.decide ⟨top :: below, []⟩ lookahead).1 = .ok item.action := by
  match items : table.items.get top.kind with
  | [] =>
      rw [items] at member
      cases member
  | [only] =>
      rw [items, List.mem_singleton] at member
      subst member
      rw [decide_of_single items, ← List.head?_map]
      exact decideAlone_of_fits fits
  | first :: second :: more =>
      rw [decide_of_several items]
      have found : item ∈ (findingsAmong (table.items.get top.kind) top.kind lookahead
          ⟨below, [top]⟩).fitting := mem_findingsAmong.mpr ⟨member, fits⟩
      apply conclude_of_agree
      · exact List.ne_nil_of_mem found
      · intro other otherFound
        rcases mem_findingsAmong.mp otherFound with ⟨otherMember, otherFits⟩
        exact agree other otherMember otherFits

theorem decide_eq_ambiguous {left right : Item} (leftMember : left ∈ table.items.get top.kind)
    (rightMember : right ∈ table.items.get top.kind)
    (leftFits : left.Fits lookahead (top.kind :: below.map Token.kind))
    (rightFits : right.Fits lookahead (top.kind :: below.map Token.kind))
    (differ : left.action ≠ right.action) :
    ∃ fitting, (table.decide ⟨top :: below, []⟩ lookahead).1 =
      .error (.ambiguous top.kind fitting) := by
  match items : table.items.get top.kind with
  | [] =>
      rw [items] at leftMember
      cases leftMember
  | [only] =>
      rw [items, List.mem_singleton] at leftMember rightMember
      exact absurd (by rw [leftMember, rightMember]) differ
  | first :: second :: more =>
      rw [decide_of_several items]
      exact ⟨_, conclude_of_disagree _ (mem_findingsAmong.mpr ⟨leftMember, leftFits⟩)
        (mem_findingsAmong.mpr ⟨rightMember, rightFits⟩) differ⟩

theorem exists_of_decide_eq_ok {action : Action}
    (decided : (table.decide ⟨top :: below, []⟩ lookahead).1 = .ok action) :
    ∃ item ∈ table.items.get top.kind, item.action = action ∧
      item.lookaheads.contains lookahead = true := by
  match items : table.items.get top.kind with
  | [] =>
      change (table.probe ⟨top :: below, []⟩ lookahead).1 = _ at decided
      simp [probe, UndoStack.pop, items] at decided
  | [only] =>
      rw [decide_of_single items, decideAlone, Item.checkLookahead] at decided
      split at decided
      · rename_i next
        refine ⟨only, by simp, ?_, next⟩
        change (if _ then _ else _) = _ at decided
        split at decided
        · cases decided
        · exact Except.ok.inj decided
      · cases decided
  | first :: second :: more =>
      rw [decide_of_several items] at decided
      rcases exists_of_conclude_eq_ok decided with ⟨item, found, same⟩
      rcases mem_findingsAmong.mp found with ⟨member, fits⟩
      rw [items] at member
      exact ⟨item, member, same, fits.1⟩

end Decisions

end Table

end Stencil
