import Stencil.Proofs.Template.Filling
import Stencil.Proofs.Template.RoundTrip

/-! # What rendering gives back

Rendering can be said of the source alone: every placeholder that has a value is replaced by it, and
all else is copied, with a line feed for every line break. A value is not read again.
-/

namespace Stencil.Template

open Stencil.Source

/-- A source with values filled in, and the names that have none, in order. -/
inductive Fills (values : String → Option String) : List Char → List Char → List String → Prop
  | done : Fills values [] [] []
  | filled {source rest text : List Char} {name marker value : String} {missing : List String}
      (next : Next source (.placeholder name marker) rest) (found : values name = some value)
      (later : Fills values rest text missing) :
      Fills values source (value.toList ++ text) missing
  | kept {source rest text : List Char} {name marker : String} {missing : List String}
      (next : Next source (.placeholder name marker) rest) (absent : values name = none)
      (later : Fills values rest text missing) :
      Fills values source (marker.toList ++ text) (name :: missing)
  | lineBreak {rest text : List Char} {missing : List String}
      (later : Fills values rest text missing) :
      Fills values ('\r' :: '\n' :: rest) ('\n' :: text) missing
  | copied {character : Char} {rest text : List Char} {missing : List String}
      (closed : ¬Opens (character :: rest)) (plain : character ≠ '\r')
      (later : Fills values rest text missing) :
      Fills values (character :: rest) (character :: text) missing

/-! ## There is only one way to fill values in -/

theorem Next.opens_of_placeholder {source rest : List Char} {name written : String}
    (next : Next source (.placeholder name written) rest) : Opens source := by
  cases next with
  | placeholder => exact ⟨_, rfl⟩

theorem Next.placeholder_unique {source rest rest' : List Char}
    {name name' written written' : String}
    (next : Next source (.placeholder name written) rest)
    (next' : Next source (.placeholder name' written') rest') :
    name = name' ∧ written = written' ∧ rest = rest' := by
  generalize shown : source = other at next'
  cases next with
  | @placeholder before name after rest blankBefore longest blankAfter =>
  cases next' with
  | @placeholder before' name' after' rest' blankBefore' longest' blankAfter' =>
      have dotStops : Lexeme.isSpacing '.' = false := by decide
      have braceStops : Lexeme.isSpacing '\x7d' = false := by decide
      rw [marker_append, marker_append] at shown
      have inside := (List.cons.inj (List.cons.inj shown).2).2
      rcases Longest.append_inj (longest_of_spacing blankBefore dotStops _)
        (longest_of_spacing blankBefore' dotStops _) inside with ⟨rfl, behindBefore⟩
      rcases longest.append_inj longest' (List.cons.inj behindBefore).2 with ⟨rfl, behindName⟩
      rcases Longest.append_inj (longest_of_spacing blankAfter braceStops _)
        (longest_of_spacing blankAfter' braceStops _) behindName with ⟨rfl, behindAfter⟩
      have same := (List.cons.inj (List.cons.inj behindAfter).2).2
      exact ⟨rfl, rfl, same⟩

theorem not_opens_cons {character : Char} (other : character ≠ '\x7b') (rest : List Char) :
    ¬Opens (character :: rest) := by
  intro opens
  exact other (List.cons_prefix_cons.mp opens).1.symm

variable {values : String → Option String} {source text text' : List Char}
  {missing missing' : List String}

theorem Fills.unique (fills : Fills values source text missing)
    (fills' : Fills values source text' missing') : text = text' ∧ missing = missing' := by
  induction fills generalizing text' missing' with
  | done =>
      generalize shown : ([] : List Char) = other at fills'
      cases fills' with
      | done => exact ⟨rfl, rfl⟩
      | filled next' => exact absurd shown.symm next'.source_ne_nil
      | kept next' => exact absurd shown.symm next'.source_ne_nil
      | lineBreak => cases shown
      | copied => cases shown
  | filled next found later induction =>
      cases fills' with
      | done => exact absurd rfl next.source_ne_nil
      | filled next' found' later' =>
          rcases next.placeholder_unique next' with ⟨rfl, rfl, rfl⟩
          rcases induction later' with ⟨rfl, rfl⟩
          rw [found] at found'
          rw [Option.some.inj found']
          exact ⟨rfl, rfl⟩
      | kept next' absent =>
          rcases next.placeholder_unique next' with ⟨rfl, _, _⟩
          rw [found] at absent
          cases absent
      | lineBreak => exact absurd next.opens_of_placeholder (not_opens_cons (by decide) _)
      | copied closed => exact absurd next.opens_of_placeholder closed
  | kept next absent later induction =>
      cases fills' with
      | done => exact absurd rfl next.source_ne_nil
      | filled next' found =>
          rcases next.placeholder_unique next' with ⟨rfl, _, _⟩
          rw [absent] at found
          cases found
      | kept next' absent' later' =>
          rcases next.placeholder_unique next' with ⟨rfl, rfl, rfl⟩
          rcases induction later' with ⟨rfl, rfl⟩
          exact ⟨rfl, rfl⟩
      | lineBreak => exact absurd next.opens_of_placeholder (not_opens_cons (by decide) _)
      | copied closed => exact absurd next.opens_of_placeholder closed
  | lineBreak later induction =>
      cases fills' with
      | filled next' => exact absurd next'.opens_of_placeholder (not_opens_cons (by decide) _)
      | kept next' => exact absurd next'.opens_of_placeholder (not_opens_cons (by decide) _)
      | lineBreak later' =>
          rcases induction later' with ⟨rfl, rfl⟩
          exact ⟨rfl, rfl⟩
      | copied _ plain => exact absurd rfl plain
  | copied closed plain later induction =>
      cases fills' with
      | filled next' => exact absurd next'.opens_of_placeholder closed
      | kept next' => exact absurd next'.opens_of_placeholder closed
      | lineBreak => exact absurd rfl plain
      | copied _ _ later' =>
          rcases induction later' with ⟨rfl, rfl⟩
          exact ⟨rfl, rfl⟩

/-! ## What is filled in is rendered -/

theorem Fills.copied_run {run rest : List Char} (plain : '\r' ∉ run)
    (closed : ∀ count < run.length, ¬Opens ((run ++ rest).drop count))
    (later : Fills values rest text missing) :
    Fills values (run ++ rest) (run ++ text) missing := by
  induction run with
  | nil => exact later
  | cons character others induction =>
      rw [List.mem_cons, not_or] at plain
      refine .copied (closed 0 (Nat.zero_lt_succ _)) (Ne.symm plain.1) (induction plain.2 ?_)
      intro count inside
      exact closed (count + 1) (Nat.succ_lt_succ inside)

theorem Fills.copied_spacing {run rest : List Char} (spacing : Spacing run)
    (later : Fills values rest text missing) :
    Fills values (run ++ rest) (run ++ text) missing := by
  induction run with
  | nil => exact later
  | cons character others induction =>
      rcases List.forall_mem_cons.mp spacing with ⟨blank, more⟩
      have different : character ≠ '\x7b' ∧ character ≠ '\r' := by
        rcases blank with rfl | rfl <;> decide
      exact .copied (not_opens_cons different.1 _) different.2 (induction more)

theorem Next.fills {rest : List Char} {piece : Piece} (next : Next source piece rest)
    (later : Fills values rest text missing) :
    Fills values source ((piece.filled values).written.toList ++ text)
      ((piece.filled values).name?.toList ++ missing) := by
  match piece, next with
  | .placeholder name marker, next =>
      cases found : values name with
      | none =>
          simp only [Piece.filled, found]
          exact .kept next found later
      | some value =>
          simp only [Piece.filled, found]
          exact .filled next found later
  | .text content, next =>
      change Fills values source (content.toList ++ text) missing
      cases next with
      | lineFeed =>
          have copied : Fills values ('\n' :: _) ('\n' :: text) missing :=
            later.copied (not_opens_cons (by decide) _) (by decide)
          exact copied
      | carriageReturn =>
          have broken := later.lineBreak
          exact broken
      | blanks nonempty longest =>
          rw [String.toList_ofList]
          exact later.copied_spacing longest.holds
      | literal nonempty longest =>
          rw [String.toList_ofList]
          exact later.copied_run (fun member => (longest.holds.plain _ member).2.2.2 rfl)
            longest.holds.closed

theorem Reads.fills {pieces : List Piece} (reads : Reads source pieces)
    (values : String → Option String) :
    Fills values source (String.join ((pieces.map (Piece.filled values)).map Piece.written)).toList
      ((pieces.map (Piece.filled values)).filterMap Piece.name?) := by
  induction reads with
  | done => exact .done
  | @next source rest piece pieces next reads induction =>
      have fills := next.fills induction
      rw [List.map_cons, List.map_cons, String.join_cons, String.toList_append, List.filterMap_cons]
      cases named : (piece.filled values).name? <;> simpa [named] using fills

theorem text_of_checkResolved {template : Template} (allowed : template.checkResolved = .ok ()) :
    template.text = .ok (String.join template.portions) := by
  rw [text, allowed]
  rfl

/-- A template is rendered as its source with a line feed for every line break and with values for
placeholders. Placeholders without a value stay as they are, or the first of them is reported. The
template is not among the results: rendering leaves it alone. -/
theorem render_ofText {options : Options} {source : String} {template : Template}
    {events : List Event} (read : (ofText ⟨table, events⟩ options source).value = .ok template)
    {lookup : Lookup} {values : String → Option String}
    (answers : ∀ name ∈ template.unresolved, lookup name = .ok (values name)) :
    ∃ text missing,
      (∀ text' missing', Fills values source.toList text' missing' ↔
        text' = String.toList text ∧ missing' = missing) ∧
      (({ template with options.unresolved := .keep } : Template).render lookup).value =
        .ok text ∧
      (({ template with options.unresolved := .refuse } : Template).render lookup).value =
        match missing with
        | [] => .ok text
        | name :: _ => .error (.write (.unresolved name)) := by
  rcases (value_tokenize_bind_eq_ok_iff _ _ _ _).mp read with ⟨_, _, reads⟩
  have fills := reads.fills values
  refine ⟨_, _, fun text' missing' => ⟨fun other => other.unique fills, ?_⟩, ?_, ?_⟩
  · rintro ⟨rfl, rfl⟩
    exact fills
  · let kept : Template := { template with options.unresolved := .keep }
    rw [value_render kept answers, text_of_checkResolved (checkResolved_of_keep rfl)]
    rfl
  · let checked : Template := { template with options.unresolved := .refuse }
    have left : (checked.filled values).unresolved =
        (template.pieces.map (Piece.filled values)).filterMap Piece.name? := rfl
    rw [value_render checked answers]
    cases names : (template.pieces.map (Piece.filled values)).filterMap Piece.name? with
    | nil =>
        rw [text_of_checkResolved (checkResolved_of_unresolved_eq_nil (left.trans names))]
        rfl
    | cons name others =>
        rw [text, checkResolved_of_refuse rfl (by rw [left, names]; rfl)]
        rfl

theorem render_ofText_verbatim :
    let source := "\x7b\x7b.A\x7d\x7d\r\n\x7b\x7b .B\x7d\x7d"
    let values := fun name => if name = "A" then some "\x7b\x7b .B\x7d\x7d\r\n" else none
    let rendered := "\x7b\x7b .B\x7d\x7d\r\n\n\x7b\x7b .B\x7d\x7d"
    ∃ template : Template, (ofText ⟨table, []⟩ {} source).value = .ok template ∧
      (∃ missing, Fills values source.toList rendered.toList ("B" :: missing)) ∧
      (template.render fun name => .ok (values name)).value = .ok rendered ∧
      (({ template with options.unresolved := .refuse } : Template).render fun name =>
        .ok (values name)).value = .error (.write (.unresolved "B")) := by
  intro source values rendered
  let template : Template :=
    ⟨[.placeholder "A" "\x7b\x7b.A\x7d\x7d", .text "\n",
      .placeholder "B" "\x7b\x7b .B\x7d\x7d"], {}⟩
  have read : (ofText ⟨table, []⟩ {} source).value = .ok template := by decide +kernel
  rcases render_ofText read (fun name _ => rfl) with ⟨text, missing, fills, kept, refused⟩
  have text_eq : (template.render fun name => .ok (values name)).value = .ok rendered := by
    rw [value_render template fun _ _ => rfl]
    decide +kernel
  have first_eq : (({ template with options.unresolved := .refuse } : Template).render fun name =>
      .ok (values name)).value = .error (.write (.unresolved "B")) := by
    rw [value_render _ fun _ _ => rfl]
    decide +kernel
  refine ⟨template, read, ?_, text_eq, first_eq⟩
  rw [Except.ok.inj (text_eq.symm.trans kept)]
  match missing with
  | [] => cases first_eq.symm.trans refused
  | name :: others =>
      cases first_eq.symm.trans refused
      exact ⟨others, (fills _ _).mpr ⟨rfl, rfl⟩⟩

end Stencil.Template
