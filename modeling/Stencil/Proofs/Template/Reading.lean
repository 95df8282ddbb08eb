import Stencil.Proofs.Source.Cutting
import Stencil.Proofs.Source.Lexemes
import Stencil.Proofs.Template.Pieces
import Stencil.Template.Basic

/-! # Reading a template piece by piece

A template can be read without tokens, grammar and tree: what a source begins with tells the next
piece, and what is left tells the others. This is all that the stages of reading come to.
-/

namespace Stencil.Template

open Stencil.Source

/-- A placeholder as the source has it: blanks may stand next to the braces, and nowhere else. -/
def marker (before name after : List Char) : List Char :=
  '\x7b' :: '\x7b' :: (before ++ '.' :: (name ++ (after ++ ['\x7d', '\x7d'])))

/-- The piece with which a source begins, and what is left behind it. Two opening braces have to
begin a placeholder, and a carriage return has to be part of a line break. -/
inductive Next : List Char → Piece → List Char → Prop
  | placeholder {before name after rest : List Char} (blankBefore : Spacing before)
      (longest : Longest IsName (name ++ (after ++ '\x7d' :: '\x7d' :: rest)) name)
      (blankAfter : Spacing after) :
      Next (marker before name after ++ rest)
        (.placeholder (.ofList name) (.ofList (marker before name after))) rest
  | lineFeed {rest : List Char} : Next ('\n' :: rest) (.text "\n") rest
  | carriageReturn {rest : List Char} : Next ('\r' :: '\n' :: rest) (.text "\n") rest
  | blanks {run rest : List Char} (nonempty : run ≠ [])
      (longest : Longest Spacing (run ++ rest) run) : Next (run ++ rest) (.text (.ofList run)) rest
  | literal {run rest : List Char} (nonempty : run ≠ [])
      (longest : Longest (Literal (run ++ rest)) (run ++ rest) run) :
      Next (run ++ rest) (.text (.ofList run)) rest

/-- The pieces of a source that can be read to its end. -/
inductive Reads : List Char → List Piece → Prop
  | done : Reads [] []
  | next {source rest : List Char} {piece : Piece} {pieces : List Piece}
      (next : Next source piece rest) (reads : Reads rest pieces) : Reads source (piece :: pieces)

/-! ## Elements of the source -/

theorem marker_append (before name after rest : List Char) :
    marker before name after ++ rest =
      '\x7b' :: '\x7b' :: (before ++ '.' :: (name ++ (after ++ '\x7d' :: '\x7d' :: rest))) := by
  simp [marker]

theorem texts_tokenAt (place : Place) (kind : Symbol) (raw : List Char) :
    (tokenAt place kind raw).texts = [tokenText kind raw] := rfl

theorem piece_placeholder (first second third fourth : Place)
    (opening dot name closing : List Char) :
    (Element.placeholder (tokenAt first .openBraces opening) (tokenAt second .dot dot)
      (tokenAt third .name name) (tokenAt fourth .closeBraces closing)).piece =
      .placeholder (.ofList name) (.ofList (opening ++ dot ++ name ++ closing)) := by
  simp [Element.piece, texts_tokenAt, tokenText, String.join, String.ofList_append,
    String.append_assoc]

theorem next_of_ofText {source raw behind : List Char} {kind : Symbol} {mode : Mode}
    (shows : OfText source kind raw behind mode) (unopened : kind ≠ .openBraces) :
    mode = .text ∧ Next source (.text (tokenText kind raw)) behind := by
  cases shows with
  | opening => exact absurd rfl unopened
  | newline breaks =>
      refine ⟨rfl, ?_⟩
      rcases breaks with rfl | rfl
      · exact .lineFeed
      · exact .carriageReturn
  | blank nonempty longest => exact ⟨rfl, .blanks nonempty longest⟩
  | text nonempty longest => exact ⟨rfl, .literal nonempty longest⟩

theorem Next.exists_ofText {source rest : List Char} {content : String}
    (next : Next source (.text content) rest) :
    ∃ kind raw, OfText source kind raw rest .text ∧ content = tokenText kind raw ∧
      (kind = .text ∨ kind = .newline ∨ kind = .blank) := by
  cases next with
  | lineFeed => exact ⟨.newline, ['\n'], .newline (.inl rfl), rfl, .inr (.inl rfl)⟩
  | carriageReturn => exact ⟨.newline, ['\r', '\n'], .newline (.inr rfl), rfl, .inr (.inl rfl)⟩
  | blanks nonempty longest => exact ⟨.blank, _, .blank nonempty longest, rfl, .inr (.inr rfl)⟩
  | literal nonempty longest => exact ⟨.text, _, .text nonempty longest, rfl, .inl rfl⟩

theorem Next.exists_element {source rest : List Char} {piece : Piece}
    (next : Next source piece rest) (place : Place) :
    ∃ (element : Element) (behind : Place), element.WellKinded ∧ element.piece = piece ∧
      ∀ later last, Cuts .text behind rest later last →
        Cuts .text place source (element.tokens ++ later) last := by
  match piece with
  | .text content =>
      rcases next.exists_ofText with ⟨kind, raw, shows, rfl, kinds⟩
      rcases first_of_ofText shows with ⟨character, others, rfl, found⟩
      refine ⟨.plain (tokenAt place kind raw), place.after raw, kinds, ?_, ?_⟩
      · simp [Element.piece, texts_tokenAt, String.join]
      · exact fun later last cuts => .token found cuts
  | .placeholder _ _ =>
      cases next with
      | @placeholder before name after _ blankBefore longest blankAfter =>
          have dotStops : Lexeme.isSpacing '.' = false := by decide
          rcases first_of_ofText (.opening (longest_of_spacing blankBefore dotStops
            (name ++ (after ++ '\x7d' :: '\x7d' :: rest)))) with ⟨_, _, whole, opening⟩
          rcases first_of_name longest with ⟨_, _, named, spelled⟩
          rcases first_of_closing blankAfter rest with ⟨_, _, closed, closing⟩
          let afterOpening := place.after ('\x7b' :: '\x7b' :: before)
          let afterDot := afterOpening.after ['.']
          let afterName := afterDot.after name
          refine ⟨.placeholder (tokenAt place .openBraces ('\x7b' :: '\x7b' :: before))
            (tokenAt afterOpening .dot ['.']) (tokenAt afterDot .name name)
            (tokenAt afterName .closeBraces (after ++ ['\x7d', '\x7d'])),
            afterName.after (after ++ ['\x7d', '\x7d']), ⟨rfl, rfl, rfl, rfl⟩, ?_, ?_⟩
          · rw [piece_placeholder]
            simp [marker]
          · intro later last cuts
            rw [marker_append, whole]
            apply Cuts.token opening
            apply Cuts.token (first_of_dot _)
            rw [named]
            apply Cuts.token spelled
            rw [closed]
            exact .token closing cuts

theorem exists_first_of_closing {place last : Place} {source : List Char} {closing : Token}
    {later : List Token} (cuts : Cuts .placeholder place source (closing :: later) last)
    (kind : closing.kind = .closeBraces) :
    ∃ character rest raw behind next, source = character :: rest ∧
      Lexeme.first .placeholder character rest = .token .closeBraces raw behind next ∧
      closing = tokenAt place .closeBraces raw ∧ Cuts next (place.after raw) behind later last := by
  cases cuts with
  | token found cuts =>
      rcases kind with rfl
      exact ⟨_, _, _, _, _, rfl, found, rfl, cuts⟩
  | skipped found cuts =>
      rcases of_skipped found with ⟨_, _, dense, unclosed⟩
      rcases cuts.exists_first (fun _ => dense) with
        ⟨character, rest, _, _, _, _, rfl, closes, rfl, _⟩
      rcases kind with rfl
      rcases (ofPlaceholder_of_first closes).of_closeBraces with ⟨spacing, blank, whole, _, _⟩
      -- Blanks cannot come again, so the braces would have been seen at once.
      match spacing, whole with
      | [], whole =>
          rw [whole] at unclosed
          cases unclosed
      | first :: others, whole =>
          have spacing := (isSpacing_iff first).mpr (blank first List.mem_cons_self)
          rw [← (List.cons.inj whole).1, dense character rfl] at spacing
          cases spacing

theorem exists_closing {place last : Place} {source : List Char} {closing : Token}
    {later : List Token} (cuts : Cuts .placeholder place source (closing :: later) last)
    (kind : closing.kind = .closeBraces) :
    ∃ spacing rest here behind, Spacing spacing ∧
      source = spacing ++ '\x7d' :: '\x7d' :: rest ∧
      closing = tokenAt here .closeBraces (spacing ++ ['\x7d', '\x7d']) ∧
      Cuts .text behind rest later last := by
  rcases exists_first_of_closing cuts kind with
    ⟨character, rest, raw, behind, next, rfl, found, rfl, cuts⟩
  rcases (ofPlaceholder_of_first found).of_closeBraces with ⟨spacing, blank, whole, rfl, rfl⟩
  exact ⟨spacing, _, _, _, blank, whole, rfl, cuts⟩

theorem exists_next {place last : Place} {source : List Char} {element : Element}
    {later : List Token} (wellKinded : element.WellKinded)
    (cuts : Cuts .text place source (element.tokens ++ later) last) :
    ∃ rest behind, Next source element.piece rest ∧ Cuts .text behind rest later last := by
  cases element with
  | plain token =>
      rcases cuts.exists_first (fun inside => by cases inside) with
        ⟨_, _, kind, raw, rest, _, rfl, found, rfl, cuts⟩
      have unopened : kind ≠ .openBraces := by
        intro opens
        rcases opens with rfl
        rcases wellKinded with text | newline | blank <;> contradiction
      rcases next_of_ofText (ofText_of_first found) unopened with ⟨rfl, next⟩
      refine ⟨rest, _, ?_, cuts⟩
      simpa [Element.piece, texts_tokenAt, String.join] using next
  | placeholder opening dot name closing =>
      rcases wellKinded with ⟨openingKind, dotKind, nameKind, closingKind⟩
      rcases cuts.exists_first (fun inside => by cases inside) with
        ⟨_, _, _, _, _, _, rfl, found, rfl, cuts⟩
      rcases openingKind with rfl
      rcases (ofText_of_first found).of_openBraces with
        ⟨before, blankBefore, whole, rfl, rfl, dense⟩
      rcases cuts.exists_first (fun _ => dense) with ⟨_, _, _, _, _, _, rfl, found, rfl, cuts⟩
      rcases dotKind with rfl
      rcases (ofPlaceholder_of_first found).of_dot with ⟨shown, rfl, rfl⟩
      rcases cuts.exists_first (fun inside => by cases inside) with
        ⟨_, _, _, _, _, _, rfl, found, rfl, cuts⟩
      rcases ofName_of_first found with ⟨rfl, rfl, named, longest⟩
      rcases exists_closing cuts closingKind with
        ⟨after, rest, _, behind, blankAfter, rfl, rfl, remaining⟩
      refine ⟨rest, behind, ?_, remaining⟩
      have next := Next.placeholder blankBefore longest blankAfter
      rw [marker_append] at next
      rw [whole, shown, named, piece_placeholder]
      simpa [marker] using next

/-! ## Whole sources -/

theorem head_of_cuts {mode : Mode} {place last : Place} {source : List Char}
    {tokens : List Token} (cuts : Cuts mode place source tokens last)
    (blank : tokens.head?.map Token.kind = some .blank) :
    mode = .text ∧ ∃ character ∈ source.head?, Lexeme.isSpacing character = true := by
  induction cuts with
  | done => cases blank
  | @token mode _ _ _ _ _ _ _ kind _ found _ =>
      have same : kind = .blank := Option.some.inj blank
      subst same
      cases mode with
      | text => exact ⟨rfl, (ofText_of_first found).of_blank.1⟩
      | placeholder => exact absurd rfl (ofPlaceholder_of_first found).kind_ne_blank
      | name => cases (ofName_of_first found).1
  | skipped found _ induction =>
      have inside := (of_skipped found).1
      rw [(induction blank).1] at inside
      cases inside

theorem blanksApart_of_cuts {mode : Mode} {place last : Place} {source : List Char}
    {tokens : List Token} (cuts : Cuts mode place source tokens last) :
    BlanksApart (tokens.map Token.kind) := by
  induction cuts with
  | done => exact .nil
  | @token mode _ _ _ _ _ _ _ kind later found cuts induction =>
      apply List.IsChain.cons induction
      intro next head
      rw [List.head?_map] at head
      by_cases blank : kind = .blank
      · right
        intro more
        subst more
        subst blank
        rcases head_of_cuts cuts head with ⟨_, character, first, spacing⟩
        cases mode with
        | text =>
            rw [(ofText_of_first found).of_blank.2 character first] at spacing
            cases spacing
        | placeholder => exact (ofPlaceholder_of_first found).kind_ne_blank rfl
        | name => cases (ofName_of_first found).1
      · exact .inl blank
  | skipped _ _ induction => exact induction

/-- Reading piece by piece cuts a source into the tokens of a row of elements, and the other way
round. -/
theorem reads_iff {source : List Char} {pieces : List Piece} (place : Place) :
    Reads source pieces ↔ ∃ (row : List Element) (last : Place),
      (∀ element ∈ row, element.WellKinded) ∧ row.map Element.piece = pieces ∧
      Cuts .text place source (row.flatMap Element.tokens) last := by
  constructor
  · intro reads
    induction reads generalizing place with
    | done => exact ⟨[], place, nofun, rfl, .done nofun⟩
    | next next _ induction =>
        rcases next.exists_element place with ⟨element, behind, wellKinded, rfl, follows⟩
        rcases induction behind with ⟨row, last, others, rfl, cuts⟩
        exact ⟨element :: row, last, List.forall_mem_cons.mpr ⟨wellKinded, others⟩, rfl,
          follows _ _ cuts⟩
  · intro cut
    rcases cut with ⟨row, last, wellKinded, rfl, cuts⟩
    induction row generalizing source place with
    | nil =>
        cases cuts with
        | done => exact .done
        | skipped found =>
            have inside := (of_skipped found).1
            cases inside
    | cons element row induction =>
        rcases List.forall_mem_cons.mp wellKinded with ⟨head, tail⟩
        rcases exists_next head cuts with ⟨rest, behind, next, cuts⟩
        exact .next next (induction behind tail cuts)

theorem scanned_of_cuts {place last : Place} {source : List Char} {tokens : List Token}
    (cuts : Cuts .text place source tokens last) :
    Scanned (Token.link (tokens ++ [endToken last])) where
  linked := Token.linked_link _
  terminal := by
    apply Token.forall_mem_link
    · simp
    · exact List.forall_mem_append.mpr ⟨cuts.isTerminal, List.forall_mem_singleton.mpr rfl⟩
  leafy := by
    apply Token.forall_mem_link
    · intro token lookahead
      cases token <;> exact Iff.rfl
    · exact List.forall_mem_append.mpr ⟨cuts.isLeaf, List.forall_mem_singleton.mpr rfl⟩
  apart := by
    rw [Token.map_link Token.kind_withLookahead, List.map_append]
    apply List.IsChain.append (blanksApart_of_cuts cuts) (.singleton _)
    intro _ _ next last
    right
    intro blank
    subst blank
    cases last

theorem ofTokens_eq_ok_iff {prepared : Reported Table} (ready : prepared.value = table)
    {options : Options} {tokens : List Token} {template : Template} :
    (ofTokens prepared options tokens).value = .ok template ↔
      template.options = options ∧
      ∃ tree, (table.parse options.trailing tokens).value = .ok tree ∧
        (Piece.ofTree tree).value = .ok template.pieces := by
  simp only [ofTokens, Attempt.value_report, Attempt.bind_eq_ok_iff, Attempt.value_lift, ready,
    Except.ok.injEq, exists_eq_left', Attempt.adapt_eq_ok_iff, Attempt.value_pure]
  constructor
  · intro stages
    rcases stages with ⟨tree, parsed, pieces, lowered, rfl⟩
    exact ⟨rfl, tree, parsed, lowered⟩
  · intro stages
    rcases stages with ⟨rfl, tree, parsed, lowered⟩
    exact ⟨tree, parsed, template.pieces, lowered, rfl⟩

theorem Next.source_ne_nil {source rest : List Char} {piece : Piece}
    (next : Next source piece rest) : source ≠ [] := by
  cases next with
  | placeholder => exact List.cons_ne_nil _ _
  | lineFeed => exact List.cons_ne_nil _ _
  | carriageReturn => exact List.cons_ne_nil _ _
  | blanks nonempty => exact List.append_ne_nil_of_left_ne_nil nonempty _
  | literal nonempty => exact List.append_ne_nil_of_left_ne_nil nonempty _

theorem Reads.source_ne_nil_iff {source : List Char} {pieces : List Piece}
    (reads : Reads source pieces) : source ≠ [] ↔ pieces ≠ [] := by
  cases reads with
  | done => simp
  | next next => exact iff_of_true next.source_ne_nil (List.cons_ne_nil _ _)

theorem exists_tokens_iff (source : List Char) (trailing : TrailingPolicy)
    (pieces : List Piece) :
    (∃ tokens, (tokenize source).value = .ok tokens ∧
      ∃ tree, (table.parse trailing tokens).value = .ok tree ∧
        (Piece.ofTree tree).value = .ok pieces) ↔
    source ≠ [] ∧ Reads source pieces := by
  constructor
  · intro found
    rcases found with ⟨tokens, tokenized, stages⟩
    rcases value_tokenize_eq_ok_iff.mp tokenized with ⟨later, last, cuts, rfl⟩
    have rows := ((scanned_of_cuts cuts).parse_iff trailing pieces).mp stages
    rcases (exists_row_link_iff rfl pieces).mp rows with
      ⟨row, nonempty, wellKinded, rfl, rfl⟩
    have reads := (reads_iff .origin).mpr ⟨row, last, wellKinded, rfl, cuts⟩
    refine ⟨reads.source_ne_nil_iff.mpr ?_, reads⟩
    rwa [ne_eq, List.map_eq_nil_iff]
  · intro readable
    rcases readable with ⟨nonempty, reads⟩
    rcases (reads_iff .origin).mp reads with ⟨row, last, wellKinded, rfl, cuts⟩
    have some : row ≠ [] := by
      have pieces := reads.source_ne_nil_iff.mp nonempty
      rwa [ne_eq, List.map_eq_nil_iff] at pieces
    have rows := (exists_row_link_iff (show (endToken last).kind = .endOfInput from rfl) _).mpr
      ⟨row, some, wellKinded, rfl, rfl⟩
    exact ⟨_, value_tokenize_eq_ok_iff.mpr ⟨_, last, cuts, rfl⟩,
      ((scanned_of_cuts cuts).parse_iff trailing _).mpr rows⟩

/-- A template is read exactly from a source that is not empty and can be read piece by piece,
whatever was reported while the table was made. -/
theorem ofText_eq_ok_iff (events : List Event) (options : Options) (source : String)
    (template : Template) :
    (ofText ⟨table, events⟩ options source).value = .ok template ↔
      source ≠ "" ∧ template.options = options ∧ Reads source.toList template.pieces := by
  have ready : (Reported.mk table events).value = table := rfl
  have nonempty : source ≠ "" ↔ source.toList ≠ [] := not_congr (by simp)
  rw [ofText, Attempt.bind_eq_ok_iff]
  simp only [Attempt.adapt_eq_ok_iff, ofTokens_eq_ok_iff ready]
  constructor
  · intro stages
    rcases stages with ⟨tokens, tokenized, same, stages⟩
    rcases (exists_tokens_iff _ _ _).mp ⟨tokens, tokenized, stages⟩ with ⟨some, reads⟩
    exact ⟨nonempty.mpr some, same, reads⟩
  · intro readable
    rcases readable with ⟨some, same, reads⟩
    rcases (exists_tokens_iff _ options.trailing _).mpr ⟨nonempty.mp some, reads⟩ with
      ⟨tokens, tokenized, stages⟩
    exact ⟨tokens, tokenized, same, stages⟩

end Stencil.Template
