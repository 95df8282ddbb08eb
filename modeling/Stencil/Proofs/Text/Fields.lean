import Stencil.Text.Blank

/-! # Fields between blanks

A text is cut into fields in one way only: each field is a run of characters that are not blank, and
between two of them there is at least one blank. What stands at the two ends of a text besides is
blank, and trimming takes it away.
-/

namespace Stencil.Text

variable {text body after blanks field : List Char} {fields : List (List Char)} {character : Char}

def AllBlank (text : List Char) : Prop :=
  ∀ character ∈ text, isBlank character = true

structure IsField (text : List Char) : Prop where
  ne_nil : text ≠ []
  solid : ∀ character ∈ text, isBlank character = false

theorem isField_iff :
    IsField text ↔ (!text.isEmpty && text.all fun character => !isBlank character) = true := by
  simp only [Bool.and_eq_true, Bool.not_eq_true', List.isEmpty_eq_false_iff, List.all_eq_true]
  exact ⟨fun isField => ⟨isField.ne_nil, isField.solid⟩, fun parts => ⟨parts.1, parts.2⟩⟩

instance (text : List Char) : Decidable (IsField text) :=
  decidable_of_iff _ isField_iff.symm

/-- A text that cannot make a field in front of it longer: it is empty or begins with a blank. -/
def EndsField (text : List Char) : Prop :=
  ∀ character ∈ text.head?, isBlank character = true

/-- A text consists of fields, in this order, with blanks between them. There may be blanks in front
of the first field and behind the last one. -/
inductive Fields : List (List Char) → List Char → Prop
  | none {blanks : List Char} (blank : AllBlank blanks) : Fields [] blanks
  | field {blanks field rest : List Char} {fields : List (List Char)} (blank : AllBlank blanks)
      (isField : IsField field) (ends : EndsField rest) (others : Fields fields rest) :
      Fields (field :: fields) (blanks ++ field ++ rest)

theorem AllBlank.cons (here : isBlank character = true) (blank : AllBlank text) :
    AllBlank (character :: text) :=
  List.forall_mem_cons.mpr ⟨here, blank⟩

theorem IsField.cons (here : isBlank character = false) (isField : IsField text) :
    IsField (character :: text) :=
  ⟨List.cons_ne_nil _ _, List.forall_mem_cons.mpr ⟨here, isField.solid⟩⟩

/-! ## Cutting -/

theorem splitTouching_cons_of_blank (blank : isBlank character = true) (text : List Char) :
    splitTouching (character :: text) = (splitFields text, false) := by
  rw [splitTouching, List.foldr_cons]
  exact if_pos blank

theorem splitTouching_cons_of_apart (solid : isBlank character = false)
    (behind : splitTouching text = (fields, false)) :
    splitTouching (character :: text) = ([character] :: fields, true) := by
  rw [splitTouching] at behind ⊢
  rw [List.foldr_cons, behind]
  dsimp only
  rw [solid]
  cases fields <;> rfl

theorem splitTouching_cons_of_touching (solid : isBlank character = false)
    (behind : splitTouching text = (field :: fields, true)) :
    splitTouching (character :: text) = ((character :: field) :: fields, true) := by
  rw [splitTouching] at behind ⊢
  rw [List.foldr_cons, behind]
  dsimp only
  rw [solid]
  rfl

theorem splitTouching_of_endsField (ends : EndsField text) :
    splitTouching text = (splitFields text, false) := by
  cases text with
  | nil => rfl
  | cons character later =>
      have blank := ends character rfl
      rw [splitFields, splitTouching_cons_of_blank blank]

theorem splitFields_append_of_blank (blank : AllBlank blanks) (text : List Char) :
    splitFields (blanks ++ text) = splitFields text := by
  induction blanks with
  | nil => rfl
  | cons character later induction =>
      rcases List.forall_mem_cons.mp blank with ⟨here, further⟩
      rw [List.cons_append, splitFields, splitTouching_cons_of_blank here]
      exact induction further

theorem splitTouching_append_of_isField (isField : IsField field) (ends : EndsField text) :
    splitTouching (field ++ text) = (field :: splitFields text, true) := by
  rcases isField with ⟨nonempty, solid⟩
  induction field with
  | nil => exact absurd rfl nonempty
  | cons character later induction =>
      rcases List.forall_mem_cons.mp solid with ⟨here, further⟩
      cases later with
      | nil => exact splitTouching_cons_of_apart here (splitTouching_of_endsField ends)
      | cons next others =>
          exact splitTouching_cons_of_touching here (induction (List.cons_ne_nil _ _) further)

theorem Fields.splitFields_eq (cut : Fields fields text) : splitFields text = fields := by
  induction cut with
  | none blank =>
      have cut := splitFields_append_of_blank blank []
      rwa [List.append_nil] at cut
  | field blank isField ends _ induction =>
      rw [List.append_assoc, splitFields_append_of_blank blank, splitFields,
        splitTouching_append_of_isField isField ends, induction]

theorem endsField_of_allBlank (blank : AllBlank text) : EndsField text :=
  fun character first => blank character (List.mem_of_mem_head? first)

theorem isField_singleton (solid : isBlank character = false) : IsField [character] :=
  ⟨List.cons_ne_nil _ _, List.forall_mem_singleton.mpr solid⟩

theorem Fields.cons {rest : List Char} (isField : IsField field) (ends : EndsField rest)
    (others : Fields fields rest) : Fields (field :: fields) (field ++ rest) :=
  @Fields.field [] field rest fields nofun isField ends others

theorem Fields.cons_blank (here : isBlank character = true) (cut : Fields fields text) :
    Fields fields (character :: text) := by
  cases cut with
  | none blank => exact .none (blank.cons here)
  | field blank isField ends others => exact .field (blank.cons here) isField ends others

theorem fields_flatMap (fields : List (List Char)) (areFields : ∀ field ∈ fields, IsField field) :
    Fields fields (fields.flatMap (· ++ [' '])) := by
  induction fields with
  | nil => exact .none nofun
  | cons field later induction =>
      rcases List.forall_mem_cons.mp areFields with ⟨isField, others⟩
      have space : isBlank ' ' = true := by decide
      have ends : EndsField (' ' :: later.flatMap (· ++ [' '])) := by
        rintro _ ⟨⟩
        exact space
      rw [List.flatMap_cons, List.append_assoc]
      exact .cons isField ends ((induction others).cons_blank space)

theorem exists_fields (text : List Char) : ∃ fields, Fields fields text := by
  induction text with
  | nil => exact ⟨[], .none nofun⟩
  | cons character later induction =>
      rcases induction with ⟨fields, cut⟩
      cases here : isBlank character with
      | true => exact ⟨fields, cut.cons_blank here⟩
      | false =>
          cases cut with
          | none blank =>
              have ends := endsField_of_allBlank blank
              exact ⟨_, .cons (isField_singleton here) ends (.none blank)⟩
          | @field blanks field rest fields blank isField ends others =>
              cases blanks with
              | nil =>
                  -- The character touches the first field and makes it longer.
                  exact ⟨_, .cons (isField.cons here) ends others⟩
              | cons first further =>
                  have starts : EndsField (first :: further ++ field ++ rest) := by
                    rintro _ ⟨⟩
                    exact blank first List.mem_cons_self
                  have others := Fields.field blank isField ends others
                  exact ⟨_, .cons (isField_singleton here) starts others⟩

/-! ## Trimming -/

theorem trim_of_allBlank (blank : AllBlank text) : trim text = [] := by
  have nothing : (text ++ []).dropWhile isBlank = [].dropWhile isBlank :=
    List.dropWhile_append_of_pos blank
  rw [List.append_nil] at nothing
  rw [trim, nothing]
  rfl

theorem exists_last (visible : ¬AllBlank text) :
    ∃ body character after, text = body ++ character :: after ∧ isBlank character = false ∧
      AllBlank after := by
  induction text with
  | nil => exact absurd nofun visible
  | cons first later induction =>
      by_cases blank : AllBlank later
      · refine ⟨[], first, later, rfl, Bool.eq_false_iff.mpr fun here => ?_, blank⟩
        exact visible (blank.cons here)
      · rcases induction blank with ⟨body, character, after, rfl, solid, behind⟩
        exact ⟨first :: body, character, after, rfl, solid, behind⟩

theorem trim_of_last (solid : isBlank character = false) (blank : AllBlank after) :
    trim (body ++ character :: after) = body.dropWhile isBlank ++ [character] := by
  have stops : ¬isBlank character = true := Bool.eq_false_iff.mp solid
  have front : (body ++ character :: after).dropWhile isBlank =
      body.dropWhile isBlank ++ character :: after := by
    rw [List.dropWhile_append, List.dropWhile_cons_of_neg stops]
    split
    · rename_i nothing
      rw [List.isEmpty_iff.mp nothing]
      rfl
    · rfl
  have back : ∀ other ∈ after.reverse, isBlank other = true := by
    intro other member
    exact blank other (List.mem_reverse.mp member)
  rw [trim, front, List.reverse_append, List.reverse_cons, List.append_assoc,
    List.dropWhile_append_of_pos back, List.singleton_append, List.dropWhile_cons_of_neg stops,
    List.reverse_cons, List.reverse_reverse]

theorem splitFields_dropWhile (text : List Char) :
    splitFields (text.dropWhile isBlank) = splitFields text := by
  have blank : AllBlank (text.takeWhile isBlank) := List.all_eq_true.mp List.all_takeWhile
  have whole := splitFields_append_of_blank blank (text.dropWhile isBlank)
  rw [List.takeWhile_append_dropWhile] at whole
  exact whole.symm

end Stencil.Text
