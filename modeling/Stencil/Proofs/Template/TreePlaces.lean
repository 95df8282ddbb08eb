import Stencil.Proofs.Parse.Spans
import Stencil.Proofs.Template.Reading

/-! # Where the nodes of a tree stand

A phrase takes its place from the first and the last token that it is built from. Since the tokens of
a template leave out nothing of the source, that is the stretch of the source that the phrase was
read from, and its children share it out among themselves.
-/

namespace Stencil

open Text (bytes)

namespace Template

open Stencil.Source Stencil.Lexeme

/-! ## Rows side by side -/

def Begun (before source : List Char) (tokens later : List Token) (last : Place) : Prop :=
  ∃ slice rest, source = slice ++ rest ∧ Token.Adjoin before tokens slice ∧
    Cuts .text (Place.origin.after (before ++ slice)) rest later last

variable {before source : List Char} {later : List Token} {last : Place}

theorem Begun.nil (cuts : Cuts .text (Place.origin.after before) source later last) :
    Begun before source [] later last :=
  ⟨[], source, rfl, .nil before, by rwa [List.append_nil]⟩

theorem Begun.cons {mode next : Mode} {character : Char} {rest raw behind : List Char}
    {kind : Symbol} (found : Lexeme.first mode character rest = .token kind raw behind next)
    {tokens : List Token} (begun : Begun (before ++ raw) behind tokens later last) :
    Begun before (character :: rest) (tokenAt (Place.origin.after before) kind raw :: tokens)
      later last := by
  rcases begun with ⟨slice, rest, rfl, adjoin, cuts⟩
  refine ⟨raw ++ slice, rest, ?_, adjoin_of_first found adjoin, ?_⟩
  · rw [List.append_assoc, (token_of_first found).2]
  · rwa [← List.append_assoc]

theorem Element.begun {element : Element} (wellKinded : element.WellKinded)
    (cuts : Cuts .text (Place.origin.after before) source (element.tokens ++ later) last) :
    Begun before source element.tokens later last := by
  cases element with
  | plain token =>
      obtain ⟨_, _, kind, _, _, _, rfl, found, rfl, cuts⟩ :=
        cuts.exists_first (fun inside => by cases inside)
      have unopened : kind ≠ .openBraces := by
        rintro rfl
        rcases wellKinded with text | newline | blank <;> contradiction
      rcases next_of_ofText (ofText_of_first found) unopened with ⟨rfl, _⟩
      rw [← Place.after_append] at cuts
      exact .cons found (.nil cuts)
  | placeholder opening dot name closing =>
      rcases wellKinded with ⟨openingKind, dotKind, nameKind, closingKind⟩
      obtain ⟨_, _, _, _, _, _, rfl, opens, rfl, cuts⟩ :=
        cuts.exists_first (fun inside => by cases inside)
      rcases openingKind with rfl
      rcases (ofText_of_first opens).of_openBraces with ⟨_, _, _, _, rfl, dense⟩
      rw [← Place.after_append] at cuts
      obtain ⟨_, _, _, _, _, _, rfl, dots, rfl, cuts⟩ := cuts.exists_first (fun _ => dense)
      rcases dotKind with rfl
      rcases (ofPlaceholder_of_first dots).of_dot with ⟨_, _, rfl⟩
      rw [← Place.after_append] at cuts
      obtain ⟨_, _, _, _, _, _, rfl, names, rfl, cuts⟩ :=
        cuts.exists_first (fun inside => by cases inside)
      rcases ofName_of_first names with ⟨_, rfl, _⟩
      rw [← Place.after_append] at cuts
      rcases exists_first_of_closing cuts closingKind with ⟨_, _, _, _, _, rfl, closes, rfl, cuts⟩
      rcases (ofPlaceholder_of_first closes).of_closeBraces with ⟨_, _, _, _, rfl⟩
      rw [← Place.after_append] at cuts
      exact .cons opens (.cons dots (.cons names (.cons closes (.nil cuts))))

theorem adjoin_row {row : List Element} (wellKinded : ∀ element ∈ row, element.WellKinded)
    (cuts : Cuts .text (Place.origin.after before) source (row.flatMap Element.tokens) last) :
    Token.Adjoin before (row.flatMap Element.tokens) source := by
  induction row generalizing before source with
  | nil =>
      cases cuts with
      | done => exact .nil before
      | skipped found => cases (of_skipped found).1
  | cons element later induction =>
      rcases List.forall_mem_cons.mp wellKinded with ⟨head, tail⟩
      rcases Element.begun head cuts with ⟨slice, rest, rfl, adjoin, cuts⟩
      exact adjoin.append (induction tail cuts)

/-! ## Whole templates -/

theorem Element.kind_ne_endOfInput {element : Element} (wellKinded : element.WellKinded) :
    ∀ token ∈ element.tokens, token.kind ≠ .endOfInput := by
  cases element with
  | placeholder opening dot name closing =>
      rcases wellKinded with ⟨first, second, third, fourth⟩
      simp [tokens, first, second, third, fourth]
  | plain token =>
      intro other member
      rcases List.mem_singleton.mp member with rfl
      rcases wellKinded with text | newline | blank
      · simp [text]
      · simp [newline]
      · simp [blank]

theorem adjoin_of_cuts {row : List Element} (wellKinded : ∀ element ∈ row, element.WellKinded)
    (cuts : Cuts .text .origin source (row.flatMap Element.tokens) last) :
    Token.Adjoin [] (Token.link (row.flatMap Element.tokens ++ [endToken last])) source := by
  have inner : Token.Adjoin [] (row.flatMap Element.tokens) source := adjoin_row wellKinded cuts
  have outer : Token.Adjoin source [endToken (Place.origin.after source)] ([] ++ []) :=
    .cons (standsFor_endToken source) (.inr nofun) (.nil _)
  rw [cuts.last_eq]
  have whole := inner.append outer
  rw [List.append_nil, List.append_nil] at whole
  exact whole.link

/-- In the tree of a source every node stands where its leaves stand, is followed by what follows
them, and covers the text that they spell. The whole tree covers the whole source. -/
theorem parse_inPlace {source : String} {tokens : List Token} {trailing : TrailingPolicy}
    {tree : Token} (tokenized : (tokenizeText source).value = .ok tokens)
    (parsed : (table.parse trailing tokens).value = .ok tree) :
    tree.span.start = 0 ∧ tree.span.stop = source.utf8ByteSize ∧
      ∀ node ∈ tree.nodes, node.InPlace source.toList tokens := by
  rcases value_tokenize_eq_ok_iff.mp tokenized with ⟨later, last, cuts, rfl⟩
  have scanned := scanned_of_cuts cuts
  rcases Table.exists_accepted terminated_grammar scanned.linked parsed with
    ⟨_, _, _, root, _, _, _, rfl, valid, start, spelled⟩
  have plain : Plain root := by
    refine ⟨valid, ?_, ?_⟩ <;> rw [spelled]
    · exact scanned.terminal
    · exact scanned.apart
  rcases plain.separate.exists_whole start with ⟨first, others, ending, wellKinded, ends, rfl⟩
  have shown := (derives_whole wellKinded ends).frontier_eq
  have ended : Token.Ended (whole first others ending).frontier := by
    refine ⟨_, ending, shown, ends, ?_⟩
    intro token member
    rcases List.mem_flatMap.mp member with ⟨element, among, used⟩
    exact Element.kind_ne_endOfInput (wellKinded element among) token used
  rw [spelled] at shown
  rcases (exists_row_link_iff rfl _).mp ⟨first, others, ending, wellKinded, ends, shown, rfl⟩ with
    ⟨row, _, rowKinded, _, rfl⟩
  have adjoin := adjoin_of_cuts rowKinded cuts
  rw [← spelled] at adjoin
  have span := valid.span_token adjoin
  refine ⟨?_, ?_, ?_⟩
  · rw [span]
    exact congrArg List.length Text.bytes_nil
  · rw [span]
    exact Text.length_bytes_toList source
  · intro node member
    rw [← spelled]
    exact valid.inPlace spelled adjoin ended member

theorem parse_inPlace_placeholder :
    let source := "\r\n\x7b\x7b .B\x7d\x7d"
    ∃ tokens tree, (tokenizeText source).value = .ok tokens ∧
      (table.parse .refuse tokens).value = .ok tree ∧ tree.span = ⟨0, 9, 1, 1⟩ ∧
      ∃ node ∈ tree.nodes, node.kind = .placeholder ∧ node.span = ⟨2, 9, 2, 1⟩ ∧
        node.InPlace source.toList tokens := by
  intro source
  have shown : ((tokenizeText source).value.toOption.bind fun tokens =>
      (table.parse .refuse tokens).value.toOption.map fun tree =>
        (tree.span, (tree.nodes.filter fun node => node.kind = .placeholder).map Token.span)) =
      some (⟨0, 9, 1, 1⟩, [⟨2, 9, 2, 1⟩]) := by
    decide +kernel
  cases tokenized : (tokenizeText source).value with
  | error error =>
      rw [tokenized] at shown
      cases shown
  | ok tokens =>
      rw [tokenized] at shown
      change Option.map _ (table.parse .refuse tokens).value.toOption = _ at shown
      cases parsed : (table.parse .refuse tokens).value with
      | error error =>
          rw [parsed] at shown
          cases shown
      | ok tree =>
          rw [parsed] at shown
          rcases Prod.mk.inj (Option.some.inj shown) with ⟨span, among⟩
          rcases List.map_eq_singleton_iff.mp among with ⟨node, found, nodeSpan⟩
          have member : node ∈ tree.nodes.filter fun node => node.kind = .placeholder :=
            found ▸ List.mem_singleton_self node
          rcases List.mem_filter.mp member with ⟨inside, kind⟩
          exact ⟨tokens, tree, rfl, parsed, span, node, inside, of_decide_eq_true kind, nodeSpan,
            (parse_inPlace tokenized parsed).2.2 node inside⟩

end Template

end Stencil
