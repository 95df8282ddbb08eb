import Mathlib.Data.List.Find
import Mathlib.Data.List.Induction
import Stencil.RankedErrors

/-! # The best of the errors that were added

However often an error is added, it keeps the place at which it came first and the largest of its
ranks. So the best error can be told from all that was added, in its order.
-/

namespace Stencil.RankedErrors

variable {ε : Type} [DecidableEq ε]

def addAll (ranking : RankedErrors ε) (added : List (ε × Nat)) : RankedErrors ε :=
  added.foldl (fun ranking entry => ranking.add entry.1 entry.2) ranking

/-- The largest rank with which an error was added. -/
def rankAmong (added : List (ε × Nat)) (error : ε) : Nat :=
  ((added.filter (·.1 = error)).map (·.2)).max?.getD 0

/-- The error was added with the largest rank of all, and whatever was added before it came first
never got that rank. -/
def Foremost (added : List (ε × Nat)) (error : ε) : Prop :=
  ∃ rank, (error, rank) ∈ added ∧ (∀ other ∈ added, other.2 ≤ rank) ∧
    ∃ earlier first later, added = earlier ++ (error, first) :: later ∧
      ∀ other ∈ earlier, (other.1, rank) ∉ added

theorem addAll_append (ranking : RankedErrors ε) (first later : List (ε × Nat)) :
    ranking.addAll (first ++ later) = (ranking.addAll first).addAll later :=
  List.foldl_append

/-! ## Ranks -/

variable {added : List (ε × Nat)} {error : ε}

theorem le_rankAmong {rank : Nat} (member : (error, rank) ∈ added) :
    rank ≤ rankAmong added error := by
  apply List.le_max?_getD_of_mem
  exact List.mem_map.mpr ⟨(error, rank), List.mem_filter.mpr ⟨member, by simp⟩, rfl⟩

theorem mem_rankAmong (member : error ∈ added.map Prod.fst) :
    (error, rankAmong added error) ∈ added := by
  rcases List.mem_map.mp member with ⟨entry, present, same⟩
  have own : entry.2 ∈ (added.filter (·.1 = error)).map (·.2) :=
    List.mem_map.mpr ⟨entry, List.mem_filter.mpr ⟨present, decide_eq_true same⟩, rfl⟩
  rcases Option.isSome_iff_exists.mp (List.isSome_max?_of_mem own) with ⟨largest, found⟩
  rw [rankAmong, found, Option.getD_some]
  rcases List.mem_map.mp (List.max?_mem found) with ⟨best, among, rfl⟩
  rcases List.mem_filter.mp among with ⟨inside, equal⟩
  rwa [← of_decide_eq_true equal]

theorem rankAmong_eq_zero (absent : error ∉ added.map Prod.fst) : rankAmong added error = 0 := by
  have none : added.filter (·.1 = error) = [] := by
    rw [List.filter_eq_nil_iff]
    intro entry present same
    exact absent (List.mem_map.mpr ⟨entry, present, of_decide_eq_true same⟩)
  rw [rankAmong, none]
  rfl

theorem rankAmong_concat (added : List (ε × Nat)) (error other : ε) (rank : Nat) :
    rankAmong (added ++ [(error, rank)]) other =
      if other = error then max (rankAmong added other) rank else rankAmong added other := by
  have largest : ∀ ranks : List Nat, (ranks ++ [rank]).max?.getD 0 =
      max (ranks.max?.getD 0) rank := by
    intro ranks
    cases ranks with
    | nil => simp
    | cons first more => simp only [List.cons_append, List.max?_cons', List.foldl_append,
        List.foldl_cons, List.foldl_nil, Option.getD_some]
  by_cases same : other = error
  · simp [rankAmong, same, largest]
  · simp [rankAmong, same, Ne.symm same]

/-! ## Entries -/

theorem entries_add (ranking : RankedErrors ε) (error : ε) (rank : Nat) :
    (ranking.add error rank).entries =
      if error ∈ ranking.entries.map Prod.fst then
        ranking.entries.map fun entry =>
          if entry.1 = error then (entry.1, max entry.2 rank) else entry
      else ranking.entries ++ [(error, rank)] := by
  have known : ranking.entries.any (·.1 = error) = true ↔
      error ∈ ranking.entries.map Prod.fst := by
    rw [List.any_eq_true, List.mem_map]
    simp only [decide_eq_true_eq]
  by_cases present : error ∈ ranking.entries.map Prod.fst
  · rw [add, if_pos (known.mpr present), if_pos present]
  · rw [add, if_neg (mt known.mp present), if_neg present]

theorem entries_addAll (added : List (ε × Nat)) :
    (empty.addAll added).entries =
      (added.map Prod.fst).eraseDups.map fun error => (error, rankAmong added error) := by
  induction added using List.reverseRecOn with
  | nil => rfl
  | append_singleton added last induction =>
      rcases last with ⟨error, rank⟩
      have known : error ∈ (empty.addAll added).entries.map Prod.fst ↔
          error ∈ added.map Prod.fst := by
        rw [induction, List.map_map]
        simp [List.mem_eraseDups]
      rw [addAll_append]
      change ((empty.addAll added).add error rank).entries = _
      rw [entries_add, List.map_append, List.map_singleton, List.eraseDups_append]
      by_cases present : error ∈ added.map Prod.fst
      · have nothing : [error].removeAll (added.map Prod.fst) = [] := by
          simpa [List.removeAll] using present
        rw [if_pos (known.mpr present), nothing, List.eraseDups_nil, List.append_nil, induction,
          List.map_map]
        apply List.map_congr_left
        intro other _
        rw [rankAmong_concat]
        by_cases same : other = error <;> simp [same]
      · have alone : [error].removeAll (added.map Prod.fst) = [error] := by
          simpa [List.removeAll] using present
        have others : (added.map Prod.fst).eraseDups.map
              (fun other => (other, rankAmong (added ++ [(error, rank)]) other)) =
            (added.map Prod.fst).eraseDups.map fun other => (other, rankAmong added other) := by
          apply List.map_congr_left
          intro other member
          rw [rankAmong_concat, if_neg]
          rintro rfl
          exact present (List.mem_eraseDups.mp member)
        have own : rankAmong (added ++ [(error, rank)]) error = rank := by
          rw [rankAmong_concat, if_pos rfl, rankAmong_eq_zero present, Nat.zero_max]
        rw [if_neg (mt known.mp present), alone, induction, List.map_append, others,
          List.eraseDups_cons, List.filter_nil, List.eraseDups_nil, List.map_singleton, own]

/-! ## Going through all entries -/

section Scanning

omit [DecidableEq ε]

/-- What the search for the best error finds: the entries in front of it have smaller ranks, and
those behind it have no larger ones. -/
def Leading (entries : List (ε × Nat)) (found : (ε × Nat) × Nat) : Prop :=
  ∃ before behind, entries = before ++ found.1 :: behind ∧ before.length = found.2 ∧
    (∀ entry ∈ before, entry.2 < found.1.2) ∧ ∀ entry ∈ behind, entry.2 ≤ found.1.2

variable {entries : List (ε × Nat)} {found : (ε × Nat) × Nat}

theorem Leading.getElem? (leading : Leading entries found) : entries[found.2]? = some found.1 := by
  rcases leading with ⟨before, behind, rfl, place, _, _⟩
  rw [← place, List.getElem?_append_right (Nat.le_refl _), Nat.sub_self, List.getElem?_cons_zero]

theorem Leading.bound (leading : Leading entries found) : ∀ entry ∈ entries, entry.2 ≤ found.1.2 := by
  rcases leading with ⟨before, behind, rfl, _, smaller, bound⟩
  intro entry member
  rcases List.mem_append.mp member with member | member
  · exact Nat.le_of_lt (smaller entry member)
  · rcases List.mem_cons.mp member with rfl | member
    · exact Nat.le_refl _
    · exact bound entry member

theorem Leading.prefer_concat (leading : Leading entries found) (last : ε × Nat) :
    ∃ next, prefer (some found) (last, entries.length) = some next ∧
      Leading (entries ++ [last]) next := by
  by_cases larger : found.1.2 < last.2
  · refine ⟨(last, entries.length), if_pos larger, entries, [], rfl, rfl, ?_, by simp⟩
    intro entry member
    exact Nat.lt_of_le_of_lt (leading.bound entry member) larger
  · refine ⟨found, if_neg larger, ?_⟩
    rcases leading with ⟨before, behind, rfl, place, smaller, bound⟩
    refine ⟨before, behind ++ [last], by simp, place, smaller, ?_⟩
    intro entry member
    rcases List.mem_append.mp member with member | member
    · exact bound entry member
    · rw [List.mem_singleton.mp member]
      exact Nat.le_of_not_lt larger

theorem exists_leading (nonempty : entries ≠ []) :
    ∃ found, entries.zipIdx.foldl prefer none = some found ∧ Leading entries found := by
  -- The entries are gone through from the first on, so it is the last one that is compared last.
  induction entries using List.reverseRecOn with
  | nil => exact absurd rfl nonempty
  | append_singleton entries last induction =>
      rw [List.zipIdx_append, List.foldl_append, Nat.zero_add]
      change ∃ found, prefer _ (last, entries.length) = some found ∧ _
      by_cases first : entries = []
      · subst first
        exact ⟨(last, 0), rfl, [], [], rfl, rfl, by simp, by simp⟩
      · rcases induction first with ⟨found, scanned, leading⟩
        rw [scanned]
        exact leading.prefer_concat last

theorem Leading.maxRank?_eq {ranking : RankedErrors ε} (leading : Leading ranking.entries found) :
    ranking.maxRank? = some found.1.2 := by
  rw [maxRank?, List.max?_eq_some_iff]
  refine ⟨List.mem_map_of_mem (List.mem_of_getElem? leading.getElem?), ?_⟩
  intro rank member
  rcases List.mem_map.mp member with ⟨entry, present, rfl⟩
  exact leading.bound entry present

theorem Leading.find?_eq (leading : Leading entries found) :
    entries.find? (·.2 = found.1.2) = some found.1 := by
  rcases leading with ⟨before, behind, split, _, smaller, _⟩
  rw [List.find?_eq_some_iff_append]
  refine ⟨decide_eq_true rfl, before, behind, split, ?_⟩
  intro entry member
  simpa using Nat.ne_of_lt (smaller entry member)

theorem best?_eq (ranking : RankedErrors ε) :
    ranking.best? =
      ranking.maxRank?.bind fun rank => (ranking.entries.find? (·.2 = rank)).map Prod.fst := by
  by_cases none : ranking.entries = []
  · simp [best?, bestIndex?, maxRank?, none]
  · rcases exists_leading none with ⟨found, scanned, leading⟩
    rw [leading.maxRank?_eq, Option.bind_some, leading.find?_eq, best?, bestIndex?, scanned]
    simp [leading.getElem?]

theorem swapRemove?_eq {α : Type} {elements : List α} {index : Nat} {element : α}
    (placed : elements[index]? = some element) :
    ∃ rest, swapRemove? elements index = some (element, rest) := by
  have nonempty : elements ≠ [] := by
    rintro rfl
    cases placed
  exact ⟨_, by rw [swapRemove?, placed, List.getLast?_eq_some_getLast nonempty]⟩

theorem takeBest?_eq_best? (ranking : RankedErrors ε) : ranking.takeBest? = ranking.best? := by
  rw [takeBest?, best?]
  cases scanned : ranking.bestIndex? with
  | none => rfl
  | some index =>
      cases placed : ranking.entries[index]? with
      | none => simp [swapRemove?, placed]
      | some entry =>
          rcases swapRemove?_eq placed with ⟨rest, taken⟩
          simp [taken, placed]

end Scanning

/-! ## The best error -/

theorem find?_eraseDups (errors : List ε) (good : ε → Bool) :
    errors.eraseDups.find? good = errors.find? good := by
  induction errors using List.reverseRecOn with
  | nil => rfl
  | append_singleton errors last induction =>
      rw [List.eraseDups_append, List.find?_append, List.find?_append, induction]
      by_cases present : last ∈ errors
      · have nothing : [last].removeAll errors = [] := by
          simpa [List.removeAll] using present
        rw [nothing, List.eraseDups_nil, List.find?_nil, Option.or_none]
        cases found : errors.find? good with
        | some _ => rfl
        | none => simp [List.find?_eq_none.mp found last present]
      · have alone : [last].removeAll errors = [last] := by
          simpa [List.removeAll] using present
        rw [alone, List.eraseDups_cons]
        rfl

theorem rankAmong_eq_iff {rank : Nat} (bound : ∀ other ∈ added, other.2 ≤ rank)
    (named : error ∈ added.map Prod.fst) :
    rankAmong added error = rank ↔ (error, rank) ∈ added := by
  constructor
  · rintro rfl
    exact mem_rankAmong named
  · intro member
    exact Nat.le_antisymm (bound _ (mem_rankAmong named)) (le_rankAmong member)

theorem maxRank?_addAll {rank : Nat} (largest : ∃ error, (error, rank) ∈ added)
    (bound : ∀ other ∈ added, other.2 ≤ rank) : (empty.addAll added).maxRank? = some rank := by
  rw [maxRank?, entries_addAll, List.map_map, List.max?_eq_some_iff]
  simp only [List.mem_map, List.mem_eraseDups, Function.comp_apply]
  constructor
  · rcases largest with ⟨error, member⟩
    have named := List.mem_map_of_mem (f := Prod.fst) member
    exact ⟨error, List.mem_map.mp named, (rankAmong_eq_iff bound named).mpr member⟩
  · rintro _ ⟨error, named, rfl⟩
    exact bound _ (mem_rankAmong (List.mem_map.mpr named))

theorem best?_addAll {rank : Nat} (largest : ∃ error, (error, rank) ∈ added)
    (bound : ∀ other ∈ added, other.2 ≤ rank) :
    (empty.addAll added).best? = (added.map Prod.fst).find? fun error => (error, rank) ∈ added := by
  rw [best?_eq, maxRank?_addAll largest bound, Option.bind_some, entries_addAll, List.find?_map,
    Option.map_map, find?_eraseDups]
  change Option.map id _ = _
  rw [Option.map_id_fun, id]
  exact List.find?_congr fun error named => decide_eq_decide.mpr (rankAmong_eq_iff bound named)

omit [DecidableEq ε] in
theorem exists_largest (nonempty : added ≠ []) :
    ∃ rank, (∃ error, (error, rank) ∈ added) ∧ ∀ other ∈ added, other.2 ≤ rank := by
  have some : added.map Prod.snd ≠ [] := by simpa using nonempty
  rcases Option.isSome_iff_exists.mp (List.isSome_max?_of_ne_nil some) with ⟨rank, found⟩
  rcases List.max?_eq_some_iff.mp found with ⟨member, bound⟩
  rcases List.mem_map.mp member with ⟨⟨error, _⟩, present, rfl⟩
  exact ⟨_, ⟨error, present⟩, fun other among => bound _ (List.mem_map_of_mem among)⟩

theorem best?_eq_some_iff : (empty.addAll added).best? = some error ↔ Foremost added error := by
  constructor
  · intro best
    have nonempty : added ≠ [] := by
      rintro rfl
      cases best
    rcases exists_largest nonempty with ⟨rank, largest, bound⟩
    rw [best?_addAll largest bound, List.find?_eq_some_iff_append] at best
    rcases best with ⟨member, before, behind, split, lower⟩
    rcases List.map_eq_append_iff.mp split with ⟨earlier, rest, whole, rfl, shown⟩
    rcases List.map_eq_cons_iff.mp shown with ⟨⟨_, first⟩, later, rfl, rfl, rfl⟩
    refine ⟨rank, of_decide_eq_true member, bound, earlier, first, later, whole, ?_⟩
    intro other among
    simpa using lower other.1 (List.mem_map_of_mem among)
  · rintro ⟨rank, member, bound, earlier, first, later, split, lower⟩
    rw [best?_addAll ⟨error, member⟩ bound, List.find?_eq_some_iff_append]
    refine ⟨decide_eq_true member, earlier.map Prod.fst, later.map Prod.fst, ?_, ?_⟩
    · rw [split, List.map_append, List.map_cons]
    · intro _ named
      rcases List.mem_map.mp named with ⟨other, among, rfl⟩
      simpa using lower other among

theorem exists_foremost (nonempty : added ≠ []) :
    ∃ error, (empty.addAll added).best? = some error ∧ Foremost added error := by
  rcases exists_largest nonempty with ⟨rank, ⟨error, member⟩, bound⟩
  have found : ((added.map Prod.fst).find? fun error => decide ((error, rank) ∈ added)).isSome := by
    rw [List.find?_isSome]
    exact ⟨error, List.mem_map_of_mem (f := Prod.fst) member, decide_eq_true member⟩
  rw [← best?_addAll ⟨error, member⟩ bound] at found
  rcases Option.isSome_iff_exists.mp found with ⟨best, equal⟩
  exact ⟨best, equal, best?_eq_some_iff.mp equal⟩

theorem maxRank?_addAll_eq (added : List (ε × Nat)) :
    (empty.addAll added).maxRank? = (added.map Prod.snd).max? := by
  by_cases none : added = []
  · subst none
    rfl
  · rcases exists_largest none with ⟨rank, ⟨error, member⟩, bound⟩
    rw [maxRank?_addAll ⟨error, member⟩ bound, eq_comm, List.max?_eq_some_iff]
    refine ⟨List.mem_map_of_mem (f := Prod.snd) member, ?_⟩
    intro other named
    rcases List.mem_map.mp named with ⟨entry, present, rfl⟩
    exact bound entry present

theorem best?_eq_none_iff : (empty.addAll added).best? = none ↔ added = [] := by
  constructor
  · intro none
    by_contra nonempty
    rcases exists_foremost nonempty with ⟨error, best, _⟩
    rw [none] at best
    cases best
  · rintro rfl
    rfl

/-- A ranking reports what got furthest, and of that what came first. Whatever was added, it knows the
different errors in the order in which they were added first, each with the largest of its ranks; its
largest rank is the largest of all; the best error, which is also the one that is taken out, is the
earliest of those that ever got that rank, and is missing only if nothing was added. -/
theorem ranking_addAll (added : List (ε × Nat)) :
    (empty.addAll added).entries =
        (added.map Prod.fst).eraseDups.map (fun error => (error, rankAmong added error)) ∧
      (empty.addAll added).maxRank? = (added.map Prod.snd).max? ∧
      (∀ error, (empty.addAll added).best? = some error ↔ Foremost added error) ∧
      ((empty.addAll added).best? = none ↔ added = []) ∧
      (empty.addAll added).takeBest? = (empty.addAll added).best? :=
  ⟨entries_addAll added, maxRank?_addAll_eq added, fun _ => best?_eq_some_iff, best?_eq_none_iff,
    takeBest?_eq_best? _⟩

/-- An error that gets the largest rank late still goes before one that had it earlier. -/
example : (empty.addAll [("first", 1), ("second", 5), ("first", 5)]).takeBest? = some "first" := by
  decide

end Stencil.RankedErrors
