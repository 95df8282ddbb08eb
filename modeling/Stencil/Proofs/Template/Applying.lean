import Mathlib.Data.List.Forall2
import Stencil.Proofs.Template.Filling

/-! # Data is applied as a whole or not at all

The names of the placeholders are asked for in order. A failure ends this, and then nothing has
changed. Otherwise the placeholders that have a value become that value, and nothing else changes.
What has become a text is never looked up again, so that data can be applied in stages.
-/

namespace Stencil

/-! ## Names that are asked for -/

/-- Names are asked for one after the other, up to the first for which the look-up fails. -/
inductive Lookup.Asks (lookup : Lookup) :
    List String → List String → Except ApplyError Unit → Prop
  | done : Asks lookup [] [] (.ok ())
  | fail {name : String} {later : List String} {error : ApplyError} :
      lookup name = .error error → Asks lookup (name :: later) [name] (.error error)
  | next {name : String} {later asked : List String} {answer : Option String}
      {outcome : Except ApplyError Unit} :
      lookup name = .ok answer → Asks lookup later asked outcome →
        Asks lookup (name :: later) (name :: asked) outcome

namespace Template

end Template

/-! ## What applying data changes -/

namespace Piece

variable {lookup : Lookup} {values : String → Option String}

end Piece

namespace Template

variable {lookup : Lookup}

theorem value_apply_of_gathering_eq_error {template : Template} {error : ApplyError}
    (failed : (template.gathering lookup).2 = .error error) :
    (template.apply lookup).value = (.error error, template) := by
  rw [value_apply_eq]
  cases gathered : template.gathering lookup with
  | mk progress outcome =>
      rw [gathered] at failed
      cases failed
      rfl

end Template

/-! ## Data in stages -/

namespace Lookup

def NeverFails (lookup : Lookup) : Prop :=
  ∀ name, ∃ answer, lookup name = .ok answer

/-- Two sets of data as one. The second is asked for what the first has no value for. -/
def orElse (first second : Lookup) : Lookup := fun name =>
  match first name with
  | .ok none => second name
  | answer => answer

theorem NeverFails.eq_answers {lookup : Lookup} (never : lookup.NeverFails) (name : String) :
    lookup name = .ok (Template.answers lookup name) := by
  rcases never name with ⟨answer, found⟩
  exact Template.eq_answers found

theorem neverFails_ofMap (fields : List (String × String)) : (ofMap fields).NeverFails :=
  fun _ => ⟨_, rfl⟩

theorem orElse_eq_ok {first second : Lookup} {name : String} {answer other : Option String}
    (found : first name = .ok answer) (otherwise : second name = .ok other) :
    first.orElse second name = .ok (answer.or other) := by
  rw [orElse, found]
  cases answer with
  | none => exact otherwise
  | some value => rfl

end Lookup

theorem Piece.filled_filled (first second : String → Option String) (piece : Piece) :
    (piece.filled first).filled second =
      piece.filled fun name => (first name).or (second name) := by
  cases piece with
  | text content => rfl
  | placeholder name marker =>
      rw [filled, filled]
      cases first name <;> rfl

namespace Template

theorem answers_eq_none {lookup : Lookup} {name : String} (unknown : lookup name = .ok none) :
    answers lookup name = none := by
  rw [answers, unknown]
  rfl

theorem filled_filled (template : Template) (first second : String → Option String) :
    (template.filled first).filled second =
      template.filled fun name => (first name).or (second name) := by
  rw [filled, filled, filled, List.map_map]
  exact congrArg (Template.mk · template.options)
    (List.map_congr_left fun piece _ => piece.filled_filled first second)

theorem value_apply_filled {lookup : Lookup} {values : String → Option String}
    (answers : ∀ name, lookup name = .ok (values name)) (template : Template)
    (before : String → Option String) :
    ((template.filled before).apply lookup).value =
      (.ok (template.unresolved.countP fun name => (values name).isSome && (before name).isNone),
        template.filled fun name => (before name).or (values name)) := by
  rw [value_apply _ fun name _ => answers name, filled_filled, unresolved_filled,
    List.countP_filter]

theorem or_comm_of_eq_none {first second : Option String} (apart : first = none ∨ second = none) :
    second.or first = first.or second := by
  rcases apart with rfl | rfl <;> simp

theorem isSome_and_isNone {first second : Option String} (apart : first = none ∨ second = none) :
    (first.isSome && second.isNone) = first.isSome := by
  rcases apart with rfl | rfl <;> simp

theorem countP_isSome_or (first second : String → Option String) (names : List String) :
    (names.countP fun name => ((first name).or (second name)).isSome) =
      (names.countP fun name => (first name).isSome) +
        names.countP fun name => (second name).isSome && (first name).isNone := by
  induction names with
  | nil => rfl
  | cons name later induction =>
      rw [List.countP_cons, List.countP_cons, List.countP_cons, induction]
      cases first name with
      | none => cases second name <;> simp [Nat.add_assoc]
      | some value => simp [Nat.add_right_comm]

/-- Data that is applied in two stages comes to the same as both at once, the first having
precedence. The same data again changes nothing, and where no name has two values either may come
first. -/
theorem apply_orElse (template : Template) {first second : Lookup}
    (firstAnswers : first.NeverFails) (secondAnswers : second.NeverFails) :
    ∃ once twice count more,
      (template.apply first).value = (.ok count, once) ∧
        (once.apply second).value = (.ok more, twice) ∧
        (template.apply (first.orElse second)).value = (.ok (count + more), twice) ∧
        (once.apply first).value = (.ok 0, once) ∧
        ((∀ name, first name = .ok none ∨ second name = .ok none) →
          ∃ other, (template.apply second).value = (.ok more, other) ∧
            (other.apply first).value = (.ok count, twice)) := by
  have either (name : String) : first.orElse second name =
      .ok ((answers first name).or (answers second name)) :=
    Lookup.orElse_eq_ok (firstAnswers.eq_answers name) (secondAnswers.eq_answers name)
  refine ⟨_, _, _, _, value_apply template fun name _ => firstAnswers.eq_answers name,
    value_apply_filled secondAnswers.eq_answers template (answers first), ?_, ?_, ?_⟩
  · rw [value_apply template fun name _ => either name, countP_isSome_or]
  · rw [value_apply_filled firstAnswers.eq_answers]
    simp [Option.isSome_iff_ne_none]
  · intro disjoint
    have apart (name : String) : answers first name = none ∨ answers second name = none :=
      (disjoint name).imp answers_eq_none answers_eq_none
    refine ⟨template.filled (answers second), ?_, ?_⟩
    · rw [value_apply template fun name _ => secondAnswers.eq_answers name]
      simp only [isSome_and_isNone (apart _).symm]
    · rw [value_apply_filled firstAnswers.eq_answers]
      simp only [or_comm_of_eq_none (apart _), isSome_and_isNone (apart _)]

theorem apply_orElse_ofMap :
    let template : Template :=
      { pieces := [.placeholder "a" "<a>", .placeholder "b" "<b>", .text "b",
          .placeholder "a" "<a>", .placeholder "c" "<c>"], options := {} }
    let first := Lookup.ofMap [("a", "<b>")]
    let second := Lookup.ofMap [("b", "1")]
    first.NeverFails ∧ second.NeverFails ∧
      (∀ name, first name = .ok none ∨ second name = .ok none) ∧
      ∃ once twice count more,
        (template.apply first).value = (.ok count, once) ∧
          (once.apply second).value = (.ok more, twice) ∧
          (template.apply (first.orElse second)).value = (.ok (count + more), twice) ∧
          (once.apply first).value = (.ok 0, once) ∧
          ∃ other, (template.apply second).value = (.ok more, other) ∧
            (other.apply first).value = (.ok count, twice) := by
  intro template first second
  have firstAnswers : first.NeverFails := Lookup.neverFails_ofMap _
  have secondAnswers : second.NeverFails := Lookup.neverFails_ofMap _
  have disjoint (name : String) : first name = .ok none ∨ second name = .ok none := by
    by_cases other : name = "a"
    · exact .inr (by rw [other]; rfl)
    · exact .inl (by simp [first, Lookup.ofMap, List.lookup_cons, beq_false_of_ne other])
  rcases apply_orElse template firstAnswers secondAnswers with
    ⟨once, twice, count, more, applied, again, both, same, swapped⟩
  exact ⟨firstAnswers, secondAnswers, disjoint, once, twice, count, more, applied, again, both,
    same, swapped disjoint⟩

end Template

end Stencil
