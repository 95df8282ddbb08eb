import Stencil.Proofs.Source.LineBreaks
import Stencil.Proofs.Template.Reading
import Stencil.Proofs.Template.Writing

/-! # Reading what was written

A template that nothing was filled into is written as its source, with a line feed for every line
break. That text is read as the same template.
-/

namespace Stencil.Template

open Stencil.Source

/-! ## Pieces of the source -/

theorem not_mem_marker {before name after : List Char} (blankBefore : Spacing before)
    (named : IsName name) (blankAfter : Spacing after) {character : Char}
    (breaks : character = '\n' ∨ character = '\r') : character ∉ marker before name after := by
  have visible : character ≠ '\x7b' ∧ character ≠ '.' ∧ character ≠ '\x7d' := by
    rcases breaks with rfl | rfl <;> decide
  have uncased : Lexeme.isCased character = false := by
    rcases breaks with rfl | rfl <;> decide +kernel
  have unspaced : Lexeme.isSpacing character = false := by
    rcases breaks with rfl | rfl <;> decide
  simp [marker, visible, blankBefore.not_mem unspaced, not_mem_of_isName named uncased,
    blankAfter.not_mem unspaced]

/-- The first piece is written as it stands in the source, apart from a line break. It comes first
in the text with line feeds as well. -/
theorem Next.unifyBreaks {source rest : List Char} {piece : Piece}
    (next : Next source piece rest) :
    unifyBreaks source = piece.written.toList ++ unifyBreaks rest ∧
      Next (unifyBreaks source) piece (unifyBreaks rest) := by
  cases next with
  | placeholder blankBefore longest blankAfter =>
      have plain := not_mem_marker blankBefore longest.holds blankAfter (.inr rfl)
      rw [unifyBreaks_append plain]
      refine ⟨by rw [Piece.written, String.toList_ofList], ?_⟩
      exact .placeholder blankBefore (longest.name_before_closing _) blankAfter
  | lineFeed =>
      rw [unifyBreaks_cons (by decide)]
      exact ⟨rfl, .lineFeed⟩
  | carriageReturn => exact ⟨rfl, .lineFeed⟩
  | blanks nonempty longest =>
      rcases longest.spacing_unifyBreaks with ⟨plain, longest⟩
      rw [unifyBreaks_append plain]
      exact ⟨by rw [Piece.written, String.toList_ofList], .blanks nonempty longest⟩
  | literal nonempty longest =>
      rcases longest.literal_unifyBreaks with ⟨plain, longest⟩
      rw [unifyBreaks_append plain]
      exact ⟨by rw [Piece.written, String.toList_ofList], .literal nonempty longest⟩

theorem Reads.unifyBreaks {source : List Char} {pieces : List Piece}
    (reads : Reads source pieces) :
    (String.join (pieces.map Piece.written)).toList = unifyBreaks source ∧
      Reads (unifyBreaks source) pieces := by
  induction reads with
  | done => exact ⟨by simp [Source.unifyBreaks], .done⟩
  | next next _ induction =>
      rcases next.unifyBreaks with ⟨spelled, unified⟩
      rcases induction with ⟨later, reads⟩
      refine ⟨?_, .next unified reads⟩
      rw [List.map_cons, String.join_cons, String.toList_append, later, spelled]

/-! ## Whole templates -/

theorem value_tokenize_bind_eq_ok_iff (events : List Event) (options : Options)
    (characters : List Char) (template : Template) :
    ((tokenize characters).adapt .lex >>= ofTokens ⟨table, events⟩ options).value =
        .ok template ↔
      characters ≠ [] ∧ template.options = options ∧ Reads characters template.pieces := by
  have ready : (Reported.mk table events).value = table := rfl
  simp only [Attempt.bind_eq_ok_iff, Attempt.adapt_eq_ok_iff, ofTokens_eq_ok_iff ready]
  rw [← and_left_comm, ← exists_tokens_iff characters options.trailing]
  simp only [exists_and_left, and_left_comm]

theorem ofBytes_toUTF8 (prepared : Reported Table) (options : Options) (text : String) :
    ofBytes prepared options text.toUTF8 = ofText prepared options text := by
  rw [ofBytes, ofText, tokenizeBytes, Text.decodeUtf8_toUTF8]
  rfl

theorem unifyBreaks_ne_nil {source : List Char} (nonempty : source ≠ []) :
    unifyBreaks source ≠ [] := by
  fun_cases unifyBreaks source with
  | case1 => exact List.cons_ne_nil _ _
  | case2 => exact List.cons_ne_nil _ _
  | case3 => exact nonempty

/-- Writing a template that may keep its placeholders gives back its source with a line feed for
every line break, whatever the sink is that takes it. That text, as it is or as bytes, is read as
the same template. -/
theorem write_ofText {σ : Type} {options : Options} {source : String} {template : Template}
    {events : List Event} (read : (ofText ⟨table, events⟩ options source).value = .ok template)
    {sink : Sink σ} {content : σ → List UInt8} (takesAll : sink.TakesAll content) (state : σ)
    (later : List Event) :
    let text := String.ofList (unifyBreaks source.toList)
    (∃ after, ({ template with options.unresolved := .keep } : Template).write sink state =
        (.ok (), after) ∧
      content after = content state ++ text.toUTF8.toList) ∧
    (ofText ⟨table, later⟩ options text).value = .ok template ∧
    (ofBytes ⟨table, later⟩ options text.toUTF8).value = .ok template := by
  intro text
  rcases (value_tokenize_bind_eq_ok_iff _ _ _ _).mp read with ⟨nonempty, same, reads⟩
  rcases reads.unifyBreaks with ⟨spelled, unified⟩
  have characters : text.toList = unifyBreaks source.toList := String.toList_ofList
  have again : (ofText ⟨table, later⟩ options text).value = .ok template := by
    apply (value_tokenize_bind_eq_ok_iff _ _ _ _).mpr
    rw [characters]
    exact ⟨unifyBreaks_ne_nil nonempty, same, unified⟩
  refine ⟨?_, again, by rwa [ofBytes_toUTF8]⟩
  let kept : Template := { template with options.unresolved := .keep }
  have joined : String.join kept.portions = text := by
    rw [← String.toList_inj, characters]
    exact spelled
  rw [← joined]
  exact write_eq_ok (checkResolved_of_keep rfl) takesAll state

theorem write_ofText_carriageReturn :
    ∃ template after,
      (ofText ⟨table, []⟩ {} "\r\n\x7b\x7b.A \x7d\x7d").value = .ok template ∧
      ({ template with options.unresolved := .keep } : Template).write .everything [] =
        (.ok (), after) ∧
      after.reverse.flatten = "\n\x7b\x7b.A \x7d\x7d".toUTF8.toList ∧
      (ofText ⟨table, []⟩ {} "\n\x7b\x7b.A \x7d\x7d").value = .ok template := by
  have accepted : (ofText ⟨table, []⟩ {} "\r\n\x7b\x7b.A \x7d\x7d").value.isOk = true := by
    decide +kernel
  have text : String.ofList (unifyBreaks "\r\n\x7b\x7b.A \x7d\x7d".toList) =
      "\n\x7b\x7b.A \x7d\x7d" := by decide +kernel
  rcases Attempt.exists_of_isOk accepted with ⟨template, read⟩
  rcases write_ofText read Sink.everything_takesAll [] [] with ⟨⟨after, written, taken⟩, again, _⟩
  rw [text] at taken again
  exact ⟨template, after, read, written, taken, again⟩

end Stencil.Template
