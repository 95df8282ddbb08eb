import Stencil.Proofs.RankedErrors
import Stencil.Proofs.Table.Deciding
import Stencil.Proofs.Table.Items
import Stencil.Template.Grammar

/-! # What a decision among several items finds

The search goes through the stack level by level and keeps a list of candidates. Here everything is
said of each item alone: whether it fits, and if not, how it fails and at which level that shows. The
search finds the items that fit, and the failures of all others, in the order of the levels.
-/

namespace Stencil

/-- The failure of one item, whatever its rivals do. -/
def DecisionError.OfItem : DecisionError → Prop
  | unexpectedLookahead .. | mismatch .. | unexpectedBelow .. => True
  | emptyStack | unusedSymbol _ | nothingFits _ | ambiguous .. => False

namespace Item

variable {item : Item} {lookahead : Option Symbol} {kinds : List Symbol} {depth : Nat}

theorem fits_iff : item.Fits lookahead kinds ↔
    item.lookaheads.contains lookahead = true ∧ item.expected <+: kinds ∧
      item.mayStartAbove kinds[item.expected.length]? = true := by
  constructor
  · rintro ⟨next, below, rfl, starts⟩
    refine ⟨next, List.prefix_append _ _, ?_⟩
    rwa [List.getElem?_append_right (Nat.le_refl _), Nat.sub_self, ← List.head?_eq_getElem?]
  · rintro ⟨next, ⟨below, rfl⟩, starts⟩
    refine ⟨next, below, rfl, ?_⟩
    rwa [List.getElem?_append_right (Nat.le_refl _), Nat.sub_self, ← List.head?_eq_getElem?]
      at starts

instance (item : Item) (lookahead : Option Symbol) (kinds : List Symbol) :
    Decidable (item.Fits lookahead kinds) :=
  decidable_of_iff _ fits_iff.symm

def lookaheadFailure? (lookahead : Option Symbol) (item : Item) : Option (DecisionError × Nat) :=
  if item.lookaheads.contains lookahead then none
  else some (.unexpectedLookahead item.focus item.lookaheads lookahead, 0)

/-- The failure of an item that shows at a level of the stack: all above it is as the item expects,
and either the element there is not, or it is the first of the rule and the rule may not begin above
the element below. -/
def failureAt? (lookahead : Option Symbol) (kinds : List Symbol) (depth : Nat) (item : Item) :
    Option (DecisionError × Nat) :=
  match item.expected[depth]? with
  | none => none
  | some expected =>
    if item.lookaheads.contains lookahead = false ∨
        kinds.take depth ≠ item.expected.take depth then none
    else if kinds[depth]? ≠ some expected then some (.mismatch expected kinds[depth]?, depth)
    else if item.expected.length = depth + 1 ∧ item.mayStartAbove kinds[depth + 1]? = false then
      some (.unexpectedBelow item.rule.lhs kinds[depth + 1]?, depth + 1)
    else none

end Item

namespace Table

/-- The failures of items with their ranks: first of those that the next token does not fit, then
level by level, and in the order of the items at each. -/
def failures (items : List Item) (lookahead : Option Symbol) (kinds : List Symbol) :
    List (DecisionError × Nat) :=
  items.filterMap (Item.lookaheadFailure? lookahead) ++
    (List.range (kinds.length + 1)).flatMap fun depth =>
      items.filterMap (Item.failureAt? lookahead kinds depth)

/-- The items that fit, by the number of elements that they match and then in their order. -/
def fittingInOrder (items : List Item) (lookahead : Option Symbol) (kinds : List Symbol) :
    List Item :=
  (List.range (kinds.length + 1)).flatMap fun matched =>
    items.filter fun item => item.Fits lookahead kinds ∧ item.expected.length = matched

/-! ## One level -/

def Candidate.failure? (actual below : Option Symbol) (depth : Nat) (candidate : Candidate) :
    Option (DecisionError × Nat) :=
  match candidate.expected with
  | [] => none
  | expected :: deeper =>
    if actual ≠ some expected then some (.mismatch expected actual, depth)
    else if deeper = [] ∧ candidate.item.mayStartAbove below = false then
      some (.unexpectedBelow candidate.item.rule.lhs below, depth + 1)
    else none

theorem errors_sift (actual below : Option Symbol) (depth : Nat) (findings : Findings)
    (candidates : List Candidate) :
    (sift actual below depth findings candidates).2.errors =
      findings.errors.addAll (candidates.filterMap (Candidate.failure? actual below depth)) := by
  fun_induction sift actual below depth findings candidates with
  | case1 => rfl
  | case2 findings candidate later used induction =>
      simp [induction, Candidate.failure?, used]
  | case3 findings candidate later expected deeper used differs induction =>
      simp [induction, Candidate.failure?, used, differs, RankedErrors.addAll]
  | case4 findings candidate later expected deeper used shown more kept found _ induction =>
      simp_all [Candidate.failure?]
  | case5 findings candidate later expected deeper used shown last starts induction =>
      simp_all [Candidate.failure?]
  | case6 findings candidate later expected deeper used shown last bars induction =>
      simp_all [Candidate.failure?, RankedErrors.addAll]

def candidateAt? (lookahead : Option Symbol) (kinds : List Symbol) (depth : Nat) (item : Item) :
    Option Candidate :=
  if item.lookaheads.contains lookahead = true ∧ kinds.take depth = item.expected.take depth ∧
      depth < item.expected.length then
    some ⟨item, item.expected.drop depth⟩
  else none

section Levels

variable {lookahead : Option Symbol} {kinds : List Symbol} {depth : Nat} {item : Item}

theorem take_succ_eq_iff {expected : List Symbol} {symbol : Symbol}
    (place : expected[depth]? = some symbol) :
    kinds.take (depth + 1) = expected.take (depth + 1) ↔
      kinds.take depth = expected.take depth ∧ kinds[depth]? = some symbol := by
  constructor
  · intro same
    constructor
    · have above := congrArg (List.take depth) same
      simpa [List.take_take] using above
    · have here := congrArg (·[depth]?) same
      simpa [place] using here
  · rintro ⟨above, here⟩
    rw [List.take_add_one, List.take_add_one, above, here, place]

theorem exists_level {expected : List Symbol} (inside : depth < expected.length) :
    ∃ symbol deeper, expected.drop depth = symbol :: deeper ∧ expected[depth]? = some symbol ∧
      expected.drop (depth + 1) = deeper ∧ (deeper = [] ↔ expected.length = depth + 1) := by
  refine ⟨_, _, List.drop_eq_getElem_cons inside, List.getElem?_eq_getElem inside, rfl, ?_⟩
  rw [List.drop_eq_nil_iff]
  omega

theorem bind_advance? (item : Item) :
    (candidateAt? lookahead kinds depth item).bind (Candidate.advance? kinds[depth]?) =
      candidateAt? lookahead kinds (depth + 1) item := by
  by_cases inside : depth < item.expected.length
  · rcases exists_level inside with ⟨symbol, deeper, split, place, rest, last⟩
    have same : kinds.take (depth + 1) = item.expected.take (depth + 1) ↔
        kinds.take depth = item.expected.take depth ∧ kinds[depth]? = some symbol :=
      take_succ_eq_iff place
    have further : depth + 1 < item.expected.length ↔ deeper ≠ [] := by
      rw [ne_eq, last]
      omega
    simp only [candidateAt?, inside, further, same, split, rest, and_true]
    by_cases fitted : item.lookaheads.contains lookahead = true ∧
        kinds.take depth = item.expected.take depth
    · cases deeper <;> by_cases shown : kinds[depth]? = some symbol <;>
        simp [fitted, shown, Candidate.advance?]
    · rw [if_neg fitted, if_neg (by tauto)]
      rfl
  · have outside : ¬depth + 1 < item.expected.length := by omega
    simp [candidateAt?, inside, outside]

theorem bind_failure? (item : Item) :
    (candidateAt? lookahead kinds depth item).bind
        (Candidate.failure? kinds[depth]? kinds[depth + 1]? depth) =
      item.failureAt? lookahead kinds depth := by
  by_cases inside : depth < item.expected.length
  · rcases exists_level inside with ⟨symbol, deeper, split, place, rest, last⟩
    simp only [candidateAt?, Item.failureAt?, inside, place, split, and_true]
    by_cases fitted : item.lookaheads.contains lookahead = true ∧
        kinds.take depth = item.expected.take depth
    · simp [fitted, Candidate.failure?, last]
    · have barred : item.lookaheads.contains lookahead = false ∨
          kinds.take depth ≠ item.expected.take depth := by
        rwa [not_and_or, Bool.not_eq_true] at fitted
      rw [if_neg fitted, if_pos barred]
      rfl
  · have outside : item.expected[depth]? = none := List.getElem?_eq_none (Nat.le_of_not_lt inside)
    simp only [candidateAt?, Item.failureAt?, inside, outside, and_false, if_false, Option.bind_none]

theorem map_filter_endsAt (item : Item) :
    ((candidateAt? lookahead kinds depth item).filter
        (Candidate.endsAt kinds[depth]? kinds[depth + 1]?)).map Candidate.item =
      Option.guard (fun item => item.Fits lookahead kinds ∧ item.expected.length = depth + 1)
        item := by
  by_cases inside : depth < item.expected.length
  · rcases exists_level inside with ⟨symbol, deeper, split, place, rest, last⟩
    simp only [candidateAt?, inside, split, and_true, Option.guard]
    by_cases ends : item.expected.length = depth + 1
    · have shown : item.expected <+: kinds ↔ kinds.take depth = item.expected.take depth ∧
          kinds[depth]? = some symbol := by
        rw [← take_succ_eq_iff place, List.prefix_iff_eq_take, ends,
          List.take_of_length_le (Nat.le_of_eq ends), eq_comm]
      simp only [Item.fits_iff, shown, ends, last.mpr ends]
      by_cases fitted : item.lookaheads.contains lookahead = true ∧
          kinds.take depth = item.expected.take depth
      · by_cases here : kinds[depth]? = some symbol <;>
          by_cases starts : item.mayStartAbove kinds[depth + 1]? = true <;>
          simp [fitted, here, starts, Candidate.endsAt, Ne.symm]
      · rw [if_neg fitted, if_neg (by simp; tauto)]
        rfl
    · have more : deeper ≠ [] := mt last.mp ends
      simp only [ends, and_false, decide_false, Bool.false_eq_true, if_false]
      split <;> simp [Candidate.endsAt, more]
  · have unfit : item.expected.length ≠ depth + 1 := by omega
    simp [candidateAt?, inside, unfit, Option.guard]

theorem sift_candidatesAt (items : List Item) (findings : Findings) :
    sift kinds[depth]? kinds[depth + 1]? depth findings
        (items.filterMap (candidateAt? lookahead kinds depth)) =
      (items.filterMap (candidateAt? lookahead kinds (depth + 1)),
        ⟨findings.fitting ++ items.filter fun item =>
            item.Fits lookahead kinds ∧ item.expected.length = depth + 1,
          findings.errors.addAll (items.filterMap (Item.failureAt? lookahead kinds depth))⟩) := by
  have kept := kept_sift kinds[depth]? kinds[depth + 1]? depth findings
    (items.filterMap (candidateAt? lookahead kinds depth))
  have fitting := fitting_sift kinds[depth]? kinds[depth + 1]? depth findings
    (items.filterMap (candidateAt? lookahead kinds depth))
  have errors := errors_sift kinds[depth]? kinds[depth + 1]? depth findings
    (items.filterMap (candidateAt? lookahead kinds depth))
  rw [List.filterMap_filterMap] at kept errors
  rw [List.filter_filterMap, List.map_filterMap] at fitting
  simp only [bind_advance?] at kept
  simp only [bind_failure?] at errors
  simp only [map_filter_endsAt, List.filterMap_eq_filter] at fitting
  generalize sift _ _ _ _ _ = sifted at kept fitting errors ⊢
  rcases sifted with ⟨kept', fitting', errors'⟩
  rw [Prod.mk.injEq, Findings.mk.injEq]
  exact ⟨kept, fitting, errors⟩

end Levels

/-! ## All levels -/

/-- Going on without candidates finds nothing more, so the search may stop as soon as none is left. -/
theorem search_succ (fewer : Nat) (actual : Option Symbol) (depth : Nat)
    (candidates : List Candidate) (stack : UndoStack Token) (findings : Findings) :
    (search (fewer + 1) actual depth candidates stack findings).1 =
      (search fewer (stack.pop.1.map Token.kind) (depth + 1)
        (sift actual (stack.peek?.map Token.kind) depth findings candidates).1 stack.pop.2
        (sift actual (stack.peek?.map Token.kind) depth findings candidates).2).1 := by
  have idle : ∀ levels actual depth stack findings,
      (search levels actual depth [] stack findings).1 = findings := by
    intro levels actual depth stack findings
    cases levels <;> rfl
  rw [search]
  generalize sift actual (stack.peek?.map Token.kind) depth findings candidates = sifted
  rcases sifted with ⟨kept, found⟩
  dsimp only
  split
  · rename_i empty
    rw [List.isEmpty_iff.mp empty, idle]
  · rfl

theorem search_candidatesAt (items : List Item) (lookahead : Option Symbol) (kinds : List Symbol)
    (levels depth : Nat) (findings : Findings) {stack : UndoStack Token}
    (shown : stack.elements.map Token.kind = kinds.drop (depth + 1)) :
    (search levels kinds[depth]? depth (items.filterMap (candidateAt? lookahead kinds depth)) stack
        findings).1 =
      ⟨findings.fitting ++ (List.range' depth levels).flatMap fun level => items.filter fun item =>
          item.Fits lookahead kinds ∧ item.expected.length = level + 1,
        findings.errors.addAll ((List.range' depth levels).flatMap fun level =>
          items.filterMap (Item.failureAt? lookahead kinds level))⟩ := by
  induction levels generalizing depth findings stack with
  | zero => simp [search, RankedErrors.addAll]
  | succ fewer induction =>
      have peeked : stack.peek?.map Token.kind = kinds[depth + 1]? := by
        rw [UndoStack.peek?, ← List.head?_map, shown, List.head?_drop]
      have popped : stack.pop.1.map Token.kind = kinds[depth + 1]? := by
        rw [← peeked]
        rcases stack with ⟨_ | ⟨top, below⟩, log⟩ <;> rfl
      have rest : stack.pop.2.elements.map Token.kind = kinds.drop (depth + 1 + 1) := by
        rw [← List.tail_drop, ← shown]
        rcases stack with ⟨_ | ⟨top, below⟩, log⟩ <;> rfl
      rw [search_succ, peeked, popped, sift_candidatesAt, induction _ _ rest, List.range'_succ,
        List.flatMap_cons, List.flatMap_cons, List.append_assoc, RankedErrors.addAll_append]

theorem flatMap_range_of_le {α : Type} {part : Nat → List α} {few many : Nat} (le : few ≤ many)
    (nothing : ∀ level, few ≤ level → part level = []) :
    (List.range many).flatMap part = (List.range few).flatMap part := by
  induction le with
  | refl => rfl
  | @step many le induction =>
      rw [List.range_succ, List.flatMap_append, induction, List.flatMap_singleton,
        nothing many le, List.append_nil]

theorem flatMap_range_eq {α : Type} {part : Nat → List α} {left right : Nat}
    (leftNothing : ∀ level, left ≤ level → part level = [])
    (rightNothing : ∀ level, right ≤ level → part level = []) :
    (List.range left).flatMap part = (List.range right).flatMap part := by
  rcases Nat.le_total left right with le | le
  · exact (flatMap_range_of_le le leftNothing).symm
  · exact flatMap_range_of_le le rightNothing

section Findings

variable {lookahead : Option Symbol} {kinds : List Symbol}

theorem failureAt?_eq_none {depth : Nat} {item : Item}
    (unseen : item.lookaheads.contains lookahead = false ∨ kinds.length < depth ∨
      item.expected.length ≤ depth) : item.failureAt? lookahead kinds depth = none := by
  unfold Item.failureAt?
  split
  · rfl
  · rename_i place
    have inside : depth < item.expected.length := (List.getElem?_eq_some_iff.mp place).1
    apply if_pos
    rcases unseen with unexpected | short | outside
    · exact .inl unexpected
    · right
      intro same
      have lengths := congrArg List.length same
      simp only [List.length_take] at lengths
      omega
    · omega

theorem siftLookahead_snd (lookahead : Option Symbol) (items : List Item) :
    (siftLookahead lookahead items).2 =
      ⟨[], RankedErrors.empty.addAll (items.filterMap (Item.lookaheadFailure? lookahead))⟩ := by
  unfold siftLookahead
  refine congrArg (Findings.mk []) ?_
  generalize RankedErrors.empty = ranking
  induction items generalizing ranking with
  | nil => rfl
  | cons item later induction =>
      rw [List.foldl_cons, induction, List.filterMap_cons]
      by_cases next : item.lookaheads.contains lookahead = true <;>
        simp [Item.checkLookahead, Item.lookaheadFailure?, next, RankedErrors.addAll]

theorem mem_fittingInOrder {items : List Item} {item : Item} :
    item ∈ fittingInOrder items lookahead kinds ↔ item ∈ items ∧ item.Fits lookahead kinds := by
  simp only [fittingInOrder, List.mem_flatMap, List.mem_range, List.mem_filter, decide_eq_true_eq]
  constructor
  · rintro ⟨_, _, member, fits, _⟩
    exact ⟨member, fits⟩
  · rintro ⟨member, fits⟩
    have bound := (Item.fits_iff.mp fits).2.1.length_le
    exact ⟨_, Nat.lt_succ_of_le bound, member, fits, rfl⟩

theorem fittingInOrder_eq {items : List Item} {levels : Nat}
    (short : ∀ item ∈ items, item.lookaheads.contains lookahead = true →
      item.expected.length ≤ levels) :
    fittingInOrder items lookahead kinds =
      (List.range levels).flatMap fun level => items.filter fun item =>
        item.Fits lookahead kinds ∧ item.expected.length = level + 1 := by
  have none : ∀ matched, (∀ item ∈ items, item.Fits lookahead kinds →
      item.expected.length ≠ matched) → (items.filter fun item =>
        item.Fits lookahead kinds ∧ item.expected.length = matched) = [] := by
    intro matched differs
    apply List.filter_eq_nil_iff.mpr
    intro item member
    simpa using differs item member
  rw [fittingInOrder, List.range_succ_eq_map, List.flatMap_cons, List.flatMap_map,
    none 0 fun item _ _ => Nat.succ_ne_zero _, List.nil_append]
  apply flatMap_range_eq
  · intro level outside
    apply none
    intro item _ fits
    have bound := (Item.fits_iff.mp fits).2.1.length_le
    omega
  · intro level outside
    apply none
    intro item member fits
    have bound := short item member fits.1
    omega

theorem flatMap_failureAt? {items : List Item} {levels : Nat}
    (short : ∀ item ∈ items, item.lookaheads.contains lookahead = true →
      item.expected.length ≤ levels) :
    ((List.range (kinds.length + 1)).flatMap fun depth =>
        items.filterMap (Item.failureAt? lookahead kinds depth)) =
      (List.range levels).flatMap fun depth =>
        items.filterMap (Item.failureAt? lookahead kinds depth) := by
  apply flatMap_range_eq
  · intro level outside
    apply List.filterMap_eq_nil_iff.mpr
    exact fun item _ => failureAt?_eq_none (.inr (.inl outside))
  · intro level outside
    apply List.filterMap_eq_nil_iff.mpr
    intro item member
    cases next : item.lookaheads.contains lookahead with
    | false => exact failureAt?_eq_none (.inl next)
    | true => exact failureAt?_eq_none (.inr (.inr (Nat.le_trans (short item member next) outside)))

theorem findingsAmong_eq (items : List Item) (top : Token) (below popped : List Token)
    (lookahead : Option Symbol) :
    findingsAmong items top.kind lookahead ⟨below, popped⟩ =
      ⟨fittingInOrder items lookahead ((top :: below).map Token.kind),
        RankedErrors.empty.addAll (failures items lookahead ((top :: below).map Token.kind))⟩ := by
  have candidates : (items.filter (·.lookaheads.contains lookahead)).map
      (fun item => (⟨item, item.expected⟩ : Candidate)) =
      items.filterMap (candidateAt? lookahead ((top :: below).map Token.kind) 0) := by
    rw [← List.filterMap_eq_filter, List.map_filterMap]
    congr 1
    funext item
    cases next : item.lookaheads.contains lookahead <;>
      simp [candidateAt?, Option.guard, next, Item.expected]
  have short : ∀ item ∈ items, item.lookaheads.contains lookahead = true →
      item.expected.length ≤ ((items.filter (·.lookaheads.contains lookahead)).map
        (·.expected.length)).foldl max 0 := by
    intro item member next
    apply le_foldl_max
    exact List.mem_map.mpr ⟨item, List.mem_filter.mpr ⟨member, next⟩, rfl⟩
  have found := search_candidatesAt items lookahead ((top :: below).map Token.kind)
    (((items.filter (·.lookaheads.contains lookahead)).map (·.expected.length)).foldl max 0) 0
    (siftLookahead lookahead items).2
    (show (UndoStack.mk below popped).elements.map Token.kind = _ from rfl)
  rw [← candidates, siftLookahead_snd, ← List.range_eq_range'] at found
  rw [failures, RankedErrors.addAll_append, fittingInOrder_eq short, flatMap_failureAt? short]
  have opened : findingsAmong items top.kind lookahead ⟨below, popped⟩ =
      (search _ (some top.kind) 0 _ ⟨below, popped⟩ (siftLookahead lookahead items).2).1 := rfl
  rw [opened, siftLookahead_snd]
  exact found

/-! ## Failures -/

theorem prefix_or_exists_differing (expected kinds : List Symbol) :
    expected <+: kinds ∨ ∃ depth symbol, expected[depth]? = some symbol ∧
      kinds.take depth = expected.take depth ∧ kinds[depth]? ≠ some symbol := by
  induction expected generalizing kinds with
  | nil => exact .inl List.nil_prefix
  | cons symbol deeper induction =>
      by_cases here : kinds.head? = some symbol
      · rcases List.head?_eq_some_iff.mp here with ⟨rest, rfl⟩
        rcases induction rest with same | ⟨depth, other, place, above, differs⟩
        · exact .inl (List.cons_prefix_cons.mpr ⟨rfl, same⟩)
        · refine .inr ⟨depth + 1, other, place, ?_, differs⟩
          rw [List.take_succ_cons, List.take_succ_cons, above]
      · rw [List.head?_eq_getElem?] at here
        exact .inr ⟨0, symbol, rfl, rfl, here⟩

theorem failureAt?_of_differs {item : Item} {depth : Nat} {symbol : Symbol}
    (next : item.lookaheads.contains lookahead = true) (place : item.expected[depth]? = some symbol)
    (above : kinds.take depth = item.expected.take depth) (differs : kinds[depth]? ≠ some symbol) :
    item.failureAt? lookahead kinds depth = some (.mismatch symbol kinds[depth]?, depth) := by
  simp [Item.failureAt?, next, place, above, differs]

theorem failureAt?_of_barred {item : Item} (next : item.lookaheads.contains lookahead = true)
    (shown : item.expected <+: kinds)
    (barred : item.mayStartAbove kinds[item.expected.length]? = false) :
    item.failureAt? lookahead kinds item.below.length =
      some (.unexpectedBelow item.rule.lhs kinds[item.expected.length]?, item.expected.length) := by
  have size : item.expected.length = item.below.length + 1 := rfl
  have inside : item.below.length < item.expected.length := by omega
  rcases shown with ⟨rest, rfl⟩
  have above : (item.expected ++ rest).take item.below.length =
      item.expected.take item.below.length :=
    List.take_append_of_le_length (Nat.le_of_lt inside)
  have here : (item.expected ++ rest)[item.below.length]? = item.expected[item.below.length]? :=
    List.getElem?_append_left inside
  rw [size] at barred ⊢
  simp [Item.failureAt?, next, above, here, size, barred]

theorem failures_ne_nil {items : List Item} {item : Item} (member : item ∈ items)
    (unfit : ¬item.Fits lookahead kinds) : failures items lookahead kinds ≠ [] := by
  have nonempty : ∀ {depth failure}, depth ≤ kinds.length →
      item.failureAt? lookahead kinds depth = some failure →
      failures items lookahead kinds ≠ [] := by
    intro depth failure bound found
    apply List.append_ne_nil_of_right_ne_nil
    apply List.ne_nil_of_mem (a := failure)
    exact List.mem_flatMap.mpr ⟨depth, List.mem_range.mpr (Nat.lt_succ_of_le bound),
      List.mem_filterMap.mpr ⟨item, member, found⟩⟩
  cases next : item.lookaheads.contains lookahead with
  | false =>
      apply List.append_ne_nil_of_left_ne_nil
      apply List.ne_nil_of_mem (a := (.unexpectedLookahead item.focus item.lookaheads lookahead, 0))
      exact List.mem_filterMap.mpr ⟨item, member, by simp [Item.lookaheadFailure?, next]⟩
  | true =>
      rcases prefix_or_exists_differing item.expected kinds with shown |
        ⟨depth, symbol, place, above, differs⟩
      · have barred : item.mayStartAbove kinds[item.expected.length]? = false := by
          rw [← Bool.not_eq_true]
          exact fun starts => unfit (Item.fits_iff.mpr ⟨next, shown, starts⟩)
        have bound : item.below.length + 1 ≤ kinds.length := shown.length_le
        exact nonempty (Nat.le_of_succ_le bound) (failureAt?_of_barred next shown barred)
      · have bound : depth ≤ kinds.length := by
          have lengths := congrArg List.length above
          have inside := (List.getElem?_eq_some_iff.mp place).1
          simp only [List.length_take] at lengths
          omega
        exact nonempty bound (failureAt?_of_differs next place above differs)

theorem ofItem_of_mem_failures {items : List Item} {error : DecisionError} {rank : Nat}
    (member : (error, rank) ∈ failures items lookahead kinds) : error.OfItem := by
  rcases List.mem_append.mp member with early | late
  · rcases List.mem_filterMap.mp early with ⟨item, _, found⟩
    unfold Item.lookaheadFailure? at found
    split at found
    · cases found
    · cases found
      trivial
  · rcases List.mem_flatMap.mp late with ⟨depth, _, among⟩
    rcases List.mem_filterMap.mp among with ⟨item, _, found⟩
    unfold Item.failureAt? at found
    split at found
    · cases found
    · split at found
      · cases found
      · split at found
        · cases found
          trivial
        · split at found
          · cases found
            trivial
          · cases found

end Findings

/-! ## Decisions -/

theorem conclude_of_nil {top : Symbol} {findings : Findings} (none : findings.fitting = []) :
    conclude top findings = .error (findings.errors.best?.getD (.nothingFits top)) := by
  simp [conclude, none, actions, RankedErrors.takeBest?_eq_best?]

section Decisions

variable {table : Table} {top : Token} {below : List Token} {lookahead : Option Symbol}

theorem decide_of_two_le (several : 2 ≤ (table.items.get top.kind).length) :
    (table.decide ⟨top :: below, []⟩ lookahead).1 =
      conclude top.kind
        ⟨fittingInOrder (table.items.get top.kind) lookahead ((top :: below).map Token.kind),
          RankedErrors.empty.addAll
            (failures (table.items.get top.kind) lookahead ((top :: below).map Token.kind))⟩ := by
  match items : table.items.get top.kind with
  | [] => simp [items] at several
  | [only] => simp [items] at several
  | first :: second :: more =>
      rw [decide_of_several items, findingsAmong_eq, items]

theorem decide_of_unfit (several : 2 ≤ (table.items.get top.kind).length)
    (unfit : ∀ item ∈ table.items.get top.kind,
      ¬item.Fits lookahead ((top :: below).map Token.kind)) :
    ∃ error, (table.decide ⟨top :: below, []⟩ lookahead).1 = .error error ∧
      RankedErrors.Foremost
        (failures (table.items.get top.kind) lookahead ((top :: below).map Token.kind)) error := by
  have none : fittingInOrder (table.items.get top.kind) lookahead
      ((top :: below).map Token.kind) = [] := by
    apply List.eq_nil_iff_forall_not_mem.mpr
    intro item found
    rcases mem_fittingInOrder.mp found with ⟨member, fits⟩
    exact unfit item member fits
  rcases List.exists_mem_of_length_pos (Nat.lt_of_succ_lt several) with ⟨item, member⟩
  rcases RankedErrors.exists_foremost (failures_ne_nil member (unfit item member)) with
    ⟨error, best, foremost⟩
  refine ⟨error, ?_, foremost⟩
  rw [decide_of_two_le several, conclude_of_nil none, best, Option.getD_some]

theorem decide_eq_ok_iff (several : 2 ≤ (table.items.get top.kind).length) (action : Action) :
    (table.decide ⟨top :: below, []⟩ lookahead).1 = .ok action ↔
      (∃ item ∈ table.items.get top.kind,
        item.Fits lookahead ((top :: below).map Token.kind)) ∧
      ∀ item ∈ table.items.get top.kind,
        item.Fits lookahead ((top :: below).map Token.kind) → item.action = action := by
  rw [decide_of_two_le several]
  constructor
  · intro concluded
    rcases exists_of_conclude_eq_ok concluded with ⟨item, found, _⟩
    rcases mem_fittingInOrder.mp found with ⟨member, fits⟩
    refine ⟨⟨item, member, fits⟩, fun other otherMember otherFits => ?_⟩
    exact action_of_conclude_eq_ok concluded (mem_fittingInOrder.mpr ⟨otherMember, otherFits⟩)
  · rintro ⟨⟨item, member, fits⟩, agree⟩
    apply conclude_of_agree
    · exact List.ne_nil_of_mem (mem_fittingInOrder.mpr ⟨member, fits⟩)
    · intro other found
      rcases mem_fittingInOrder.mp found with ⟨otherMember, otherFits⟩
      exact agree other otherMember otherFits

theorem decide_cases (several : 2 ≤ (table.items.get top.kind).length) :
    (∃ action, (table.decide ⟨top :: below, []⟩ lookahead).1 = .ok action) ∨
    ((∃ left ∈ table.items.get top.kind, ∃ right ∈ table.items.get top.kind,
        left.Fits lookahead ((top :: below).map Token.kind) ∧
        right.Fits lookahead ((top :: below).map Token.kind) ∧ left.action ≠ right.action) ∧
      (table.decide ⟨top :: below, []⟩ lookahead).1 = .error (.ambiguous top.kind
        (fittingInOrder (table.items.get top.kind) lookahead ((top :: below).map Token.kind)))) ∨
    ∃ error, (table.decide ⟨top :: below, []⟩ lookahead).1 = .error error ∧
      RankedErrors.Foremost
        (failures (table.items.get top.kind) lookahead ((top :: below).map Token.kind)) error := by
  by_cases fits : ∃ item ∈ table.items.get top.kind,
      item.Fits lookahead ((top :: below).map Token.kind)
  · rcases fits with ⟨item, member, fits⟩
    by_cases agree : ∀ other ∈ table.items.get top.kind,
        other.Fits lookahead ((top :: below).map Token.kind) → other.action = item.action
    · exact .inl ⟨item.action, (decide_eq_ok_iff several _).mpr ⟨⟨item, member, fits⟩, agree⟩⟩
    · push Not at agree
      rcases agree with ⟨other, otherMember, otherFits, differ⟩
      refine .inr (.inl ⟨⟨other, otherMember, item, member, otherFits, fits, differ⟩, ?_⟩)
      rw [decide_of_two_le several]
      exact conclude_of_disagree _ (mem_fittingInOrder.mpr ⟨otherMember, otherFits⟩)
        (mem_fittingInOrder.mpr ⟨member, fits⟩) differ
  · exact .inr (.inr (decide_of_unfit several fun item member itemFits =>
      fits ⟨item, member, itemFits⟩))

theorem decide_eq_ambiguous_iff (several : 2 ≤ (table.items.get top.kind).length)
    (symbol : Symbol) (fitting : List Item) :
    (table.decide ⟨top :: below, []⟩ lookahead).1 = .error (.ambiguous symbol fitting) ↔
      (symbol = top.kind ∧ fitting = fittingInOrder (table.items.get top.kind) lookahead
        ((top :: below).map Token.kind)) ∧
      ∃ left ∈ table.items.get top.kind, ∃ right ∈ table.items.get top.kind,
        left.Fits lookahead ((top :: below).map Token.kind) ∧
        right.Fits lookahead ((top :: below).map Token.kind) ∧ left.action ≠ right.action := by
  constructor
  · intro decided
    rcases decide_cases several with ⟨action, other⟩ | ⟨disagree, other⟩ |
      ⟨error, other, rank, member, _⟩ <;> rw [other] at decided <;> cases decided
    · exact ⟨⟨rfl, rfl⟩, disagree⟩
    · exact (ofItem_of_mem_failures member).elim
  · rintro ⟨⟨rfl, rfl⟩, left, leftMember, right, rightMember, leftFits, rightFits, differ⟩
    rw [decide_of_two_le several]
    exact conclude_of_disagree _ (mem_fittingInOrder.mpr ⟨leftMember, leftFits⟩)
      (mem_fittingInOrder.mpr ⟨rightMember, rightFits⟩) differ

end Decisions

/-- The items of a symbol stand for places of rules: an item expects its rule from its place back to
the first symbol, and below that what may come before the phrase. -/
theorem place_of_mem_items {grammar : Grammar} {symbol : Symbol} {item : Item}
    (member : item ∈ (ofGrammar grammar).items.get symbol) :
    grammar.rules[item.index]? = some item.rule ∧
      item.expected = item.rule.stackOrder.drop item.position ∧
      item.preceding = grammar.surroundings.precede.get item.rule.lhs := by
  rcases mem_items_iff.mp member with ⟨index, rule, before, after, numbered, split, rfl⟩
  have reached : rule.stackOrder.drop after.length = symbol :: before.reverse := by
    rw [Item.stackOrder_of_split split]
    exact List.drop_left' (by simp)
  cases after <;> exact ⟨numbered, reached.symm, rfl⟩

/-- What a decision among several items means. An item fits if the next token, the elements that its
rule names and the element below them are as it wants them. The fitting items decide if they agree,
and are told if they disagree. If there are none, the failure that got furthest is told; of equally
good ones the one that was met first, looking at the next token first and then at one level of the
stack after the other. -/
theorem decide_several {grammar : Grammar} {top : Token} {below : List Token}
    {lookahead : Option Symbol}
    (several : 2 ≤ ((ofGrammar grammar).items.get top.kind).length) :
    let items := (ofGrammar grammar).items.get top.kind
    let kinds := (top :: below).map Token.kind
    let decision := ((ofGrammar grammar).decide ⟨top :: below, []⟩ lookahead).1
    (∀ item ∈ items, grammar.rules[item.index]? = some item.rule ∧
      item.expected = item.rule.stackOrder.drop item.position ∧
      item.preceding = grammar.surroundings.precede.get item.rule.lhs) ∧
    (∀ action, decision = .ok action ↔
      (∃ item ∈ items, item.Fits lookahead kinds) ∧
      ∀ item ∈ items, item.Fits lookahead kinds → item.action = action) ∧
    (∀ symbol fitting, decision = .error (.ambiguous symbol fitting) ↔
      (symbol = top.kind ∧ fitting = fittingInOrder items lookahead kinds) ∧
      ∃ left ∈ items, ∃ right ∈ items, left.Fits lookahead kinds ∧ right.Fits lookahead kinds ∧
        left.action ≠ right.action) ∧
    ((∀ item ∈ items, ¬item.Fits lookahead kinds) →
      ∃ error, decision = .error error ∧
        RankedErrors.Foremost (failures items lookahead kinds) error) :=
  ⟨fun _ => place_of_mem_items, decide_eq_ok_iff several, decide_eq_ambiguous_iff several,
    decide_of_unfit several⟩

theorem decide_several_elements :
    2 ≤ ((ofGrammar Template.grammar).items.get .elements).length ∧
    ∃ error, ((ofGrammar Template.grammar).decide
        ⟨[.leaf .elements "" .nowhere none, .leaf .dot "." .nowhere none], []⟩
        (some .endOfInput)).1 = .error error ∧
      RankedErrors.Foremost
        [(.unexpectedBelow .source (some .dot), 1), (.mismatch .element (some .dot), 1)] error := by
  have several : 2 ≤ ((ofGrammar Template.grammar).items.get .elements).length := by
    decide +kernel
  have unfit : ∀ item ∈ (ofGrammar Template.grammar).items.get .elements,
      ¬item.Fits (some .endOfInput) [.elements, .dot] := by
    decide +kernel
  have met : failures ((ofGrammar Template.grammar).items.get .elements) (some .endOfInput)
      [.elements, .dot] =
        [(.unexpectedBelow .source (some .dot), 1), (.mismatch .element (some .dot), 1)] := by
    decide +kernel
  have stopped : ∃ error, ((ofGrammar Template.grammar).decide
        ⟨[.leaf .elements "" .nowhere none, .leaf .dot "." .nowhere none], []⟩
        (some .endOfInput)).1 = .error error ∧
      RankedErrors.Foremost (failures ((ofGrammar Template.grammar).items.get .elements)
        (some .endOfInput) [.elements, .dot]) error :=
    (decide_several several).2.2.2 unfit
  rcases stopped with ⟨error, decided, foremost⟩
  rw [← met]
  exact ⟨several, error, decided, foremost⟩

end Table

end Stencil
