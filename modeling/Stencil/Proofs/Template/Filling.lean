import Stencil.Proofs.Template.Writing

/-! # Applying data

As long as no look-up fails, data is applied to each piece by itself: a placeholder that has a value
becomes that value, and everything else stays as it is.
-/

namespace Stencil

namespace Piece

/-- A piece with its value in its place, if it is a placeholder that has one. -/
def filled (values : String → Option String) : Piece → Piece
  | text content => text content
  | placeholder name marker => (values name).elim (placeholder name marker) text

@[simp] theorem filterMap_name?_text (content : String) (later : List Piece) :
    (text content :: later).filterMap name? = later.filterMap name? := rfl

@[simp] theorem filterMap_name?_placeholder (name marker : String) (later : List Piece) :
    (placeholder name marker :: later).filterMap name? = name :: later.filterMap name? := rfl

theorem filterMap_name?_filled (values : String → Option String) (pieces : List Piece) :
    (pieces.map (filled values)).filterMap name? =
      (pieces.filterMap name?).filter fun name => (values name).isNone := by
  induction pieces with
  | nil => rfl
  | cons piece later induction =>
      cases piece with
      | text content => simpa [filled] using induction
      | placeholder name marker =>
          cases found : values name with
          | none => simpa [filled, found] using induction
          | some value => simpa [filled, found] using induction

end Piece

namespace Template

variable {lookup : Lookup} {values : String → Option String}

/-- The values for the placeholders among pieces, each with its place. The first of the pieces has
the given place. -/
def valuesFrom (values : String → Option String) (place : Nat) : List Piece → List (Nat × String)
  | [] => []
  | .text _ :: later => valuesFrom values (place + 1) later
  | .placeholder name _ :: later =>
    match values name with
    | none => valuesFrom values (place + 1) later
    | some value => (place, value) :: valuesFrom values (place + 1) later

theorem lookUp_eq {pieces : List Piece}
    (answers : ∀ name ∈ pieces.filterMap Piece.name?, lookup name = .ok (values name))
    (place : Nat) (progress : Progress) :
    lookUp lookup place progress pieces =
      ({ asked := (pieces.filterMap Piece.name?).reverse ++ progress.asked
         missing := ((pieces.filterMap Piece.name?).filter fun name =>
           (values name).isNone).reverse ++ progress.missing
         found := (valuesFrom values place pieces).reverse ++ progress.found },
        .ok ()) := by
  induction pieces generalizing place progress with
  | nil => rfl
  | cons piece later induction =>
      cases piece with
      | text content =>
          rw [lookUp, induction answers]
          rfl
      | placeholder name marker =>
          rcases List.forall_mem_cons.mp answers with ⟨answer, others⟩
          rw [lookUp, answer]
          cases found : values name with
          | none =>
              dsimp only
              rw [induction others]
              simp [valuesFrom, found]
          | some value =>
              dsimp only
              rw [induction others]
              simp [valuesFrom, found]

theorem length_valuesFrom (values : String → Option String) (place : Nat) (pieces : List Piece) :
    (valuesFrom values place pieces).length =
      (pieces.filterMap Piece.name?).countP fun name => (values name).isSome := by
  induction pieces generalizing place with
  | nil => rfl
  | cons piece later induction =>
      cases piece with
      | text content => exact induction (place + 1)
      | placeholder name marker =>
          rw [valuesFrom, Piece.filterMap_name?_placeholder, List.countP_cons,
            ← induction (place + 1)]
          cases values name <;> rfl

theorem replaceAll_cons (pieces : Array Piece) (place : Nat) (value : String)
    (later : List (Nat × String)) :
    replaceAll pieces ((place, value) :: later) =
      replaceAll (pieces.setIfInBounds place (.text value)) later := rfl

/-- The second pass leaves alone what is in front of the first place, and behind it each value finds
the placeholder that it was found for. -/
theorem replaceAll_valuesFrom (values : String → Option String) (before pieces : List Piece) :
    replaceAll (before ++ pieces).toArray (valuesFrom values before.length pieces) =
      (before ++ pieces.map (Piece.filled values)).toArray := by
  induction pieces generalizing before with
  | nil => rfl
  | cons piece later induction =>
      -- What a piece becomes is in front of the pieces that come after it.
      have further := induction (before ++ [piece.filled values])
      rw [List.append_assoc, List.append_assoc, List.length_append] at further
      cases piece with
      | text content => exact further
      | placeholder name marker =>
          rw [List.map_cons, valuesFrom]
          rw [Piece.filled] at further ⊢
          cases found : values name with
          | none =>
              rw [found] at further
              exact further
          | some value =>
              rw [found] at further
              have set : (before ++ .placeholder name marker :: later).toArray.setIfInBounds
                  before.length (.text value) = (before ++ .text value :: later).toArray := by
                simp
              dsimp only
              rw [replaceAll_cons, set]
              exact further

def filled (template : Template) (values : String → Option String) : Template :=
  { template with pieces := template.pieces.map (Piece.filled values) }

theorem unresolved_filled (template : Template) (values : String → Option String) :
    (template.filled values).unresolved =
      template.unresolved.filter fun name => (values name).isNone :=
  Piece.filterMap_name?_filled values template.pieces

theorem value_apply (template : Template)
    (answers : ∀ name ∈ template.unresolved, lookup name = .ok (values name)) :
    (template.apply lookup).value =
      (.ok (template.unresolved.countP fun name => (values name).isSome),
        template.filled values) := by
  have pieces : replaceAll template.pieces.toArray (valuesFrom values 0 template.pieces) =
      (template.pieces.map (Piece.filled values)).toArray :=
    replaceAll_valuesFrom values [] template.pieces
  rw [value_apply_eq, gathering, lookUp_eq answers]
  dsimp only
  rw [List.append_nil, List.reverse_reverse, List.length_reverse, length_valuesFrom, pieces]
  rfl

theorem value_render (template : Template)
    (answers : ∀ name ∈ template.unresolved, lookup name = .ok (values name)) :
    (template.render lookup).value = ((template.filled values).text).mapError .write := by
  rw [value_render_eq, value_apply template answers]

/-! ## Data that can be asked -/

def answers (lookup : Lookup) (name : String) : Option String :=
  (lookup name).toOption.join

theorem eq_answers {name : String} {answer : Option String} (found : lookup name = .ok answer) :
    lookup name = .ok (answers lookup name) := by
  rw [answers, found]
  rfl

theorem answers_of_lookUp_eq_ok {pieces : List Piece} {place : Nat} {progress : Progress}
    (done : (lookUp lookup place progress pieces).2 = .ok ()) :
    ∀ name ∈ pieces.filterMap Piece.name?, lookup name = .ok (answers lookup name) := by
  induction pieces generalizing place progress with
  | nil => exact nofun
  | cons piece later induction =>
      cases piece with
      | text content => exact induction done
      | placeholder name marker =>
          rw [Piece.filterMap_name?_placeholder, List.forall_mem_cons]
          rw [lookUp] at done
          cases found : lookup name with
          | error error =>
              rw [found] at done
              cases done
          | ok answer =>
              rw [found] at done
              refine ⟨(found.symm.trans (eq_answers found)), ?_⟩
              cases answer with
              | none => exact induction done
              | some value => exact induction done

theorem answers_of_apply_eq_ok {template kept : Template} {count : Nat}
    (applied : (template.apply lookup).value = (.ok count, kept)) :
    ∀ name ∈ template.unresolved, lookup name = .ok (answers lookup name) := by
  rw [value_apply_eq] at applied
  rcases gathered : template.gathering lookup with ⟨progress, error | _⟩
  · rw [gathered] at applied
    cases applied
  · have done : (lookUp lookup 0 ⟨[], [], []⟩ template.pieces).2 = .ok () :=
      congrArg Prod.snd gathered
    exact answers_of_lookUp_eq_ok done

theorem text_eq_ok_iff {template : Template} {written : String} :
    template.text = .ok written ↔
      (template.options.unresolved = .refuse → template.unresolved = []) ∧
        written = String.join template.portions := by
  rw [text, checkResolved]
  cases template.options.unresolved with
  | keep =>
      change Except.ok (String.join template.portions) = .ok written ↔ _
      rw [Except.ok.injEq, eq_comm]
      simp
  | refuse =>
      cases template.unresolved with
      | nil =>
          change Except.ok (String.join template.portions) = .ok written ↔ _
          rw [Except.ok.injEq, eq_comm]
          simp
      | cons name others =>
          change Except.error (WriteError.unresolved name) = .ok written ↔ _
          simp

theorem render_eq_ok_iff {template : Template} {written : String} :
    (template.render lookup).value = .ok written ↔
      (∀ name ∈ template.unresolved, lookup name = .ok (answers lookup name)) ∧
        (template.filled (answers lookup)).text = .ok written := by
  constructor
  · intro rendered
    have asked : ∀ name ∈ template.unresolved, lookup name = .ok (answers lookup name) := by
      rw [value_render_eq] at rendered
      rcases applied : (template.apply lookup).value with ⟨error | count, kept⟩
      · rw [applied] at rendered
        cases rendered
      · exact answers_of_apply_eq_ok applied
    refine ⟨asked, ?_⟩
    rw [value_render template asked] at rendered
    cases spelled : (template.filled (answers lookup)).text with
    | error error =>
        rw [spelled] at rendered
        cases rendered
    | ok other =>
        rw [spelled] at rendered
        exact congrArg Except.ok (Except.ok.inj rendered)
  · rintro ⟨asked, spelled⟩
    rw [value_render template asked, spelled]
    rfl

end Template

end Stencil
