import Stencil.Proofs.Template.Advancing
import Stencil.Proofs.Template.Reading

/-! # Why a source is no template

A source is refused because it cannot be cut into tokens, because it is empty, or because a token is
not followed by what has to come behind it. The parser knows other failures, but no source leads to
them.
-/

namespace Stencil.Template

open Stencil.Source

/-! ## The layout of the tokens of a source -/

theorem Layout.congr {tokens others : List Token} (layout : Layout tokens)
    (same : others.map Token.content = tokens.map Token.content) : Layout others := by
  induction layout generalizing others with
  | ended ends =>
      rcases List.map_eq_singleton_iff.mp same with ⟨ending, rfl, equal⟩
      exact .ended ((congrArg Prod.fst equal).trans ends)
  | element wellKinded _ induction =>
      rw [List.map_append] at same
      rcases List.map_eq_append_iff.mp same with ⟨front, back, rfl, frontSame, backSame⟩
      rcases Element.exists_alike wellKinded frontSame with ⟨other, rfl, otherKinded, _⟩
      exact .element otherKinded (induction backSame)
  | unfinished unfinished unmet =>
      cases unfinished with
      | braces opens =>
          simp only [List.nil_append, List.map_cons, List.map_eq_cons_iff, Token.content,
            Prod.mk.injEq] at same
          rcases same with ⟨opening', _, rfl, ⟨opening, _⟩, next', _, rfl, ⟨next, _⟩, _⟩
          exact .unfinished (.braces (opening.trans opens)) (by rwa [next])
      | name opens dots names =>
          simp only [List.cons_append, List.nil_append, List.map_cons, List.map_eq_cons_iff,
            Token.content, Prod.mk.injEq] at same
          rcases same with ⟨opening', _, rfl, ⟨opening, _⟩, dot', _, rfl, ⟨dot, _⟩,
            name', _, rfl, ⟨name, _⟩, next', _, rfl, ⟨next, _⟩, _⟩
          exact .unfinished (.name (opening.trans opens) (dot.trans dots) (name.trans names))
            (by rwa [next])

theorem exists_name {place last : Place} {source : List Char} {tokens : List Token}
    (cuts : Cuts .name place source tokens last) :
    ∃ name later here rest, tokens = name :: later ∧ name.kind = .name ∧
      Cuts .placeholder here rest later last := by
  cases cuts with
  | done complete => exact absurd rfl complete
  | token found cuts =>
      rcases ofName_of_first found with ⟨rfl, rfl, _⟩
      exact ⟨_, _, _, _, rfl, rfl, cuts⟩
  | skipped found =>
      have inside := (of_skipped found).1
      cases inside

theorem kind_of_ofText {source raw behind : List Char} {kind : Symbol} {mode : Mode}
    (shows : OfText source kind raw behind mode) (unopened : kind ≠ .openBraces) :
    mode = .text ∧ (kind = .text ∨ kind = .newline ∨ kind = .blank) := by
  cases shows with
  | opening => exact absurd rfl unopened
  | newline => exact ⟨rfl, .inr (.inl rfl)⟩
  | blank => exact ⟨rfl, .inr (.inr rfl)⟩
  | text => exact ⟨rfl, .inl rfl⟩

/-- A placeholder goes wrong, or it ends and the source goes on behind it. -/
theorem layout_of_opened {place last : Place} {source : List Char} {opening : Token}
    {tokens : List Token} (opens : opening.kind = .openBraces)
    (cuts : Cuts .placeholder place source tokens last)
    (dense : ∀ character ∈ source.head?, Lexeme.isSpacing character = false)
    (goesOn : ∀ place source later, later.length < tokens.length →
      Cuts .text place source later last → Layout (later ++ [endToken last])) :
    Layout (opening :: tokens ++ [endToken last]) := by
  match tokens, cuts with
  | [], _ => exact .unfinished (.braces opens) nofun
  | dot :: tokens, cuts =>
      by_cases dots : dot.kind = .dot
      · rcases cuts.exists_first (fun _ => dense) with
          ⟨_, _, kind, _, _, _, rfl, found, cut, cuts⟩
        obtain rfl : kind = .dot := (congrArg Token.kind cut).symm.trans dots
        rcases (ofPlaceholder_of_first found).of_dot with ⟨_, _, rfl⟩
        rcases exists_name cuts with ⟨name, tokens, _, _, rfl, names, cuts⟩
        match tokens, cuts with
        | [], _ => exact .unfinished (.name opens dots names) nofun
        | closing :: tokens, cuts =>
            by_cases closes : closing.kind = .closeBraces
            · rcases exists_closing cuts closes with ⟨_, _, _, _, _, _, _, cuts⟩
              have wellKinded : Element.WellKinded (.placeholder opening dot name closing) :=
                ⟨opens, dots, names, closes⟩
              have shorter : tokens.length < (dot :: name :: closing :: tokens).length := by
                simp only [List.length_cons]
                omega
              exact Layout.element wellKinded (goesOn _ _ tokens shorter cuts)
            · exact .unfinished (.name opens dots names) closes
      · exact .unfinished (.braces opens) dots

theorem layout_of_cuts {place last : Place} {source : List Char} {tokens : List Token}
    (cuts : Cuts .text place source tokens last) : Layout (tokens ++ [endToken last]) := by
  -- A placeholder uses up several tokens, so the induction is on how many there are.
  induction size : tokens.length using Nat.strong_induction_on generalizing place source tokens with
  | h length induction =>
  match tokens, cuts with
  | [], _ => exact .ended rfl
  | token :: later, cuts =>
      rw [List.length_cons] at size
      rcases cuts.exists_first (fun inside => by cases inside) with
        ⟨_, _, kind, raw, rest, next, rfl, found, rfl, cuts⟩
      by_cases opens : kind = .openBraces
      · subst opens
        rcases (ofText_of_first found).of_openBraces with ⟨_, _, _, _, rfl, dense⟩
        exact layout_of_opened rfl cuts dense fun place source tokens shorter cuts =>
          induction tokens.length (by omega) cuts rfl
      · rcases kind_of_ofText (ofText_of_first found) opens with ⟨rfl, plain⟩
        have wellKinded : Element.WellKinded (.plain (tokenAt place kind raw)) := plain
        exact Layout.element wellKinded (induction later.length (by omega) cuts rfl)

/-! ## The failures of reading -/

/-- Why a source is refused, and the failure that says so. -/
inductive Refusal (source : String) : TemplateError → Prop
  | uncut {cause : LexError} (fault : (tokenizeText source).value = .error cause) :
      Refusal source (.lex cause)
  /-- In front of the end of the input there is nothing that a template could consist of. -/
  | empty (nothing : source = "") :
      Refusal source (.parse (.reduce 1 1
        { lhs := .source, expected := .elements, got := none, preceding := some .endOfInput }))
  | unmet {tokens : List Token} {token next : Token} {wanted : Symbol}
      (cut : (tokenizeText source).value = .ok tokens)
      (unmet : FirstUnmet tokens token wanted next) :
      Refusal source (.parse (unmetError token wanted next))

variable {events : List Event} {options : Options} {source : String}

theorem value_ofText_of_parse_error {tokens : List Token} {cause : ParseError}
    (cut : (tokenizeText source).value = .ok tokens)
    (failed : (table.parse options.trailing tokens).value = .error cause) :
    (ofText ⟨table, events⟩ options source).value = .error (.parse cause) := by
  have stopped : (ofTokens ⟨table, events⟩ options tokens).value = .error (.parse cause) := by
    rw [ofTokens, Attempt.value_report, Attempt.value_bind, Attempt.value_lift]
    dsimp only
    rw [Attempt.value_bind, Attempt.value_adapt, failed]
    rfl
  rw [ofText, Attempt.value_bind, Attempt.value_adapt, cut]
  exact stopped

theorem parse_ending (trailing : TrailingPolicy) :
    (table.parse trailing (Token.link [endToken .origin])).value =
      .error (.reduce 1 1
        { lhs := .source, expected := .elements, got := none, preceding := some .endOfInput }) := by
  cases trailing <;> decide +kernel

theorem layout_of_tokenizeText {tokens : List Token}
    (cut : (tokenizeText source).value = .ok tokens) : Layout tokens ∧ Scanned tokens := by
  rcases value_tokenize_eq_ok_iff.mp cut with ⟨later, last, cuts, rfl⟩
  have contents := Token.map_link Token.content_withLookahead (later ++ [endToken last])
  exact ⟨(layout_of_cuts cuts).congr contents, scanned_of_cuts cuts⟩

theorem Refusal.value_ofText {error : TemplateError} (refusal : Refusal source error) :
    (ofText ⟨table, events⟩ options source).value = .error error := by
  cases refusal with
  | uncut fault =>
      rw [ofText, Attempt.value_bind, Attempt.value_adapt, fault]
      rfl
  | empty nothing =>
      subst nothing
      have cut : (tokenizeText "").value = .ok (Token.link [endToken .origin]) :=
        value_tokenize_eq_ok_iff.mpr ⟨[], .origin, .done (by decide), rfl⟩
      exact value_ofText_of_parse_error cut (parse_ending options.trailing)
  | unmet cut unmet =>
      rcases layout_of_tokenizeText cut with ⟨layout, scanned⟩
      rcases layout.parse scanned.linked scanned.apart options.trailing with
        ⟨row, ending, wellKinded, _, spelled⟩ | ⟨_, _, _, unmet', failed⟩
      · rw [spelled] at unmet
        exact absurd unmet (not_firstUnmet_row wellKinded _ _ _ _)
      · rcases unmet.unique unmet' with ⟨rfl, rfl, rfl⟩
        exact value_ofText_of_parse_error cut failed

theorem eq_empty_of_tokenizeText {ending : Token}
    (cut : (tokenizeText source).value = .ok [ending]) : source = "" := by
  rcases value_tokenize_eq_ok_iff.mp cut with ⟨later, last, cuts, linked⟩
  have contents := Token.map_link Token.content_withLookahead (later ++ [endToken last])
  rw [← linked] at contents
  have none : later = [] := by simpa using congrArg List.length contents
  subst none
  generalize characters : source.toList = rest at cuts
  cases cuts with
  | done => exact String.toList_eq_nil_iff.mp characters
  | skipped found =>
      have inside := (of_skipped found).1
      cases inside

theorem exists_refusal_or_template (events : List Event) (options : Options) (source : String) :
    (∃ error, Refusal source error) ∨
      ∃ template, (ofText ⟨table, events⟩ options source).value = .ok template := by
  match cut : (tokenizeText source).value with
  | .error cause => exact .inl ⟨_, .uncut cut⟩
  | .ok tokens =>
      rcases layout_of_tokenizeText cut with ⟨layout, scanned⟩
      rcases layout.parse scanned.linked scanned.apart options.trailing with
        ⟨row, ending, wellKinded, ends, spelled⟩ | ⟨_, _, _, unmet, _⟩
      · match row, wellKinded, spelled with
        | [], _, spelled => exact .inl ⟨_, .empty (eq_empty_of_tokenizeText (spelled ▸ cut))⟩
        | first :: later, wellKinded, spelled =>
            rcases (scanned.parse_iff options.trailing _).mpr
              ⟨first, later, ending, wellKinded, ends, spelled, rfl⟩ with ⟨tree, parsed, lowered⟩
            have ready : (Reported.mk table events).value = table := rfl
            refine .inr ⟨⟨(first :: later).map Element.piece, options⟩, ?_⟩
            rw [ofText, Attempt.bind_eq_ok_iff]
            exact ⟨tokens, Attempt.adapt_eq_ok_iff.mpr cut,
              (ofTokens_eq_ok_iff ready).mpr ⟨rfl, tree, parsed, lowered⟩⟩
      · exact .inl ⟨_, .unmet cut unmet⟩

theorem ofText_eq_error_iff (events : List Event) (options : Options) (source : String)
    (error : TemplateError) :
    (ofText ⟨table, events⟩ options source).value = .error error ↔ Refusal source error := by
  constructor
  · intro failed
    rcases exists_refusal_or_template events options source with ⟨other, refusal⟩ | ⟨template, read⟩
    · have same := refusal.value_ofText.symm.trans failed
      rwa [← Except.error.inj same]
    · rw [read] at failed
      cases failed
  · exact Refusal.value_ofText

end Stencil.Template
