import Stencil.Proofs.Template.Elements

/-! # The pieces of a row

The tree of a row of elements has one piece for every element, in order.
-/

namespace Stencil.Template

theorem token_phrase (index : Nat) (parts : List Derivation) (numbered : index < rules.length) :
    (phrase index parts numbered).token =
      .ofChildren rules[index].lhs (parts.map Derivation.token) :=
  Derivation.token_built _ _ _

theorem ofChildren_singleton (kind : Symbol) (child : Token) :
    Token.ofChildren kind [child] =
      .node kind [child] (child.span.cover child.span) child.lookahead := rfl

theorem ofChildren_pair (kind : Symbol) (left right : Token) :
    Token.ofChildren kind [left, right] =
      .node kind [left, right] (left.span.cover right.span) right.lookahead := rfl

namespace Element

def Leafy (element : Element) : Prop :=
  ∀ token ∈ element.tokens, token.isLeaf = true

theorem exists_alike {element : Element} {others : List Token} (wellKinded : element.WellKinded)
    (same : others.map Token.content = element.tokens.map Token.content) :
    ∃ other : Element, others = other.tokens ∧ other.WellKinded ∧ other.piece = element.piece := by
  cases element with
  | placeholder opening dot name closing =>
      simp only [tokens, List.map_cons, List.map_nil, List.map_eq_cons_iff, List.map_eq_nil_iff,
        Token.content, Prod.mk.injEq] at same
      rcases same with ⟨opening', _, rfl, ⟨openingKind, openingTexts⟩,
        dot', _, rfl, ⟨dotKind, dotTexts⟩, name', _, rfl, ⟨nameKind, nameTexts⟩,
        closing', _, rfl, ⟨closingKind, closingTexts⟩, rfl⟩
      refine ⟨.placeholder opening' dot' name' closing', rfl, ?_, ?_⟩
      · rwa [WellKinded, openingKind, dotKind, nameKind, closingKind]
      · simp only [piece, List.flatMap_cons, openingTexts, dotTexts, nameTexts, closingTexts]
  | plain token =>
      simp only [tokens, List.map_cons, List.map_nil, List.map_eq_cons_iff, List.map_eq_nil_iff,
        Token.content, Prod.mk.injEq] at same
      rcases same with ⟨token', _, rfl, ⟨kind, texts⟩, rfl⟩
      refine ⟨.plain token', rfl, ?_, ?_⟩
      · rwa [WellKinded, kind]
      · rw [piece, piece, texts]

theorem exists_row_alike {elements : List Element} {others : List Token}
    (wellKinded : ∀ element ∈ elements, element.WellKinded)
    (same : others.map Token.content = (elements.flatMap tokens).map Token.content) :
    ∃ alike : List Element, others = alike.flatMap tokens ∧
      (∀ element ∈ alike, element.WellKinded) ∧ alike.map piece = elements.map piece := by
  induction elements generalizing others with
  | nil => exact ⟨[], List.map_eq_nil_iff.mp same, nofun, rfl⟩
  | cons element later induction =>
      rw [List.flatMap_cons, List.map_append] at same
      rcases List.map_eq_append_iff.mp same with ⟨front, back, rfl, frontSame, backSame⟩
      rcases List.forall_mem_cons.mp wellKinded with ⟨head, tail⟩
      rcases exists_alike head frontSame with ⟨other, rfl, otherKinded, pieceSame⟩
      rcases induction tail backSame with ⟨alike, rfl, alikeKinded, pieces⟩
      refine ⟨other :: alike, rfl, List.forall_mem_cons.mpr ⟨otherKinded, alikeKinded⟩, ?_⟩
      rw [List.map_cons, List.map_cons, pieceSame, pieces]

variable {element : Element}

theorem ofElement_token (wellKinded : element.WellKinded) (leafy : element.Leafy) :
    Piece.ofElement element.derivation.token = .ok element.piece := by
  cases element with
  | placeholder opening dot name closing =>
      let body := phrase 7 [.read opening, .read dot, .read name, .read closing]
      have children : body.token.children = [opening, dot, name, closing] := rfl
      have marker : body.token.leafText =
          String.join ([opening, dot, name, closing].flatMap Token.texts) := by
        rw [Token.leafText_eq, token_phrase, Token.texts_ofChildren]
        rfl
      have named : name.kind = .name := wellKinded.2.2.1
      have spelled := Token.text?_of_isLeaf (leafy name (by simp [tokens]))
      change Piece.ofPlaceholder body.token = _
      simp only [Piece.ofPlaceholder, children, named, if_pos, spelled, marker]
      rfl
  | plain token =>
      have spelled := Token.text?_of_isLeaf (leafy token (by simp [tokens]))
      rw [derivation]
      rcases wellKinded with text | newline | blank
      · rw [if_neg (by simp [text]), if_neg (by simp [text])]
        change Piece.ofElementBody token = _
        simp only [Piece.ofElementBody, text, spelled]
        rfl
      · rw [if_neg (by simp [newline]), if_pos newline]
        change Piece.ofElementBody token = _
        simp only [Piece.ofElementBody, newline, spelled]
        rfl
      · have same : (phrase 8 [.read token]).token.leafText = String.join token.texts := by
          rw [Token.leafText_eq, token_phrase, Token.texts_ofChildren]
          simp [Derivation.token]
        rw [if_pos blank]
        change Except.ok (Piece.text (phrase 8 [.read token]).token.leafText) = _
        rw [same]
        rfl

end Element

variable {first : Element} {later : List Element}

theorem ofElements_token (wellKinded : ∀ element ∈ first :: later, element.WellKinded)
    (leafy : ∀ element ∈ first :: later, element.Leafy) (made : List Piece) :
    Piece.ofElements (row first later).token made =
      .ok (made.reverse ++ (first :: later).map Element.piece) := by
  induction later generalizing first made with
  | nil =>
      have head := Element.ofElement_token (wellKinded first List.mem_cons_self)
        (leafy first List.mem_cons_self)
      rw [row, token_phrase, List.map_singleton, ofChildren_singleton, Piece.ofElements,
        if_neg (fun differ => differ rfl), head]
      change Except.ok (first.piece :: made).reverse = _
      rw [List.reverse_cons]
      rfl
  | cons next later induction =>
      rcases List.forall_mem_cons.mp wellKinded with ⟨headKinded, tailKinded⟩
      rcases List.forall_mem_cons.mp leafy with ⟨headLeafy, tailLeafy⟩
      have head := Element.ofElement_token headKinded headLeafy
      rw [row, token_phrase, List.map_cons, List.map_singleton, ofChildren_pair, Piece.ofElements,
        if_neg (fun differ => differ rfl), head]
      change Piece.ofElements (row next later).token (first.piece :: made) = _
      rw [induction tailKinded tailLeafy, List.reverse_cons, List.append_assoc]
      rfl

theorem value_ofTree (wellKinded : ∀ element ∈ first :: later, element.WellKinded)
    (leafy : ∀ element ∈ first :: later, element.Leafy) {ending : Token}
    (ends : ending.kind = .endOfInput) :
    (Piece.ofTree (whole first later ending).token).value =
      .ok ((first :: later).map Element.piece) := by
  have pieces := ofElements_token wellKinded leafy []
  have last : (whole first later ending).token.children = [(row first later).token, ending] := rfl
  have kind : (whole first later ending).token.kind = .source := rfl
  rw [Piece.ofTree, kind, last]
  dsimp only
  rw [if_pos ends, pieces]
  rfl

/-! ## Trees of tokens -/

/-- Tokens as they are cut off a source. -/
structure Scanned (tokens : List Token) : Prop where
  linked : Token.Linked tokens
  terminal : ∀ token ∈ tokens, token.kind.isTerminal = true
  leafy : ∀ token ∈ tokens, token.isLeaf = true
  apart : BlanksApart (tokens.map Token.kind)

/-- Tokens are parsed exactly if they make up a row of elements and an end, and then the pieces are
those of the elements. -/
theorem Scanned.parse_iff {tokens : List Token} (scanned : Scanned tokens)
    (trailing : TrailingPolicy) (pieces : List Piece) :
    (∃ tree, (table.parse trailing tokens).value = .ok tree ∧
      (Piece.ofTree tree).value = .ok pieces) ↔
    ∃ (first : Element) (later : List Element) (ending : Token),
      (∀ element ∈ first :: later, element.WellKinded) ∧ ending.kind = .endOfInput ∧
      tokens = (first :: later).flatMap Element.tokens ++ [ending] ∧
      pieces = (first :: later).map Element.piece := by
  have leafyOf : ∀ (first : Element) (later : List Element) (ending : Token),
      tokens = (first :: later).flatMap Element.tokens ++ [ending] →
      ∀ element ∈ first :: later, element.Leafy := by
    intro first later ending spelled element member token used
    apply scanned.leafy
    rw [spelled]
    exact List.mem_append_left _ (List.mem_flatMap.mpr ⟨element, member, used⟩)
  constructor
  · intro stages
    rcases stages with ⟨tree, parsed, lowered⟩
    rcases Table.exists_accepted terminated_grammar scanned.linked parsed with
      ⟨_, _, _, root, _, _, _, rfl, valid, start, spelled⟩
    have plain : Plain root := by
      refine ⟨valid, ?_, ?_⟩ <;> rw [spelled]
      · exact scanned.terminal
      · exact scanned.apart
    rcases plain.separate.exists_whole start with ⟨first, later, ending, wellKinded, ends, rfl⟩
    have whole := (derives_whole wellKinded ends).frontier_eq
    rw [spelled] at whole
    have leafy := leafyOf first later ending whole
    rw [value_ofTree wellKinded leafy ends] at lowered
    exact ⟨first, later, ending, wellKinded, ends, whole, (Except.ok.inj lowered).symm⟩
  · intro rows
    rcases rows with ⟨first, later, ending, wellKinded, ends, spelled, rfl⟩
    have derives := derives_whole wellKinded ends
    rw [← spelled] at derives
    have leafy := leafyOf first later ending spelled
    exact ⟨(whole first later ending).token,
      parse_of_derives derives scanned.terminal scanned.linked scanned.apart trailing,
      value_ofTree wellKinded leafy ends⟩

theorem exists_row_link_iff {tokens : List Token} {last : Token}
    (ends : last.kind = .endOfInput) (pieces : List Piece) :
    (∃ (first : Element) (later : List Element) (ending : Token),
      (∀ element ∈ first :: later, element.WellKinded) ∧ ending.kind = .endOfInput ∧
      Token.link (tokens ++ [last]) = (first :: later).flatMap Element.tokens ++ [ending] ∧
      pieces = (first :: later).map Element.piece) ↔
    ∃ row : List Element, row ≠ [] ∧ (∀ element ∈ row, element.WellKinded) ∧
      row.map Element.piece = pieces ∧ tokens = row.flatMap Element.tokens := by
  have contents := Token.map_link Token.content_withLookahead (tokens ++ [last])
  constructor
  · intro rows
    rcases rows with ⟨first, later, ending, wellKinded, _, spelled, rfl⟩
    rw [spelled, List.map_append, List.map_append] at contents
    have same := (List.append_inj_left' contents rfl).symm
    rcases Element.exists_row_alike wellKinded same with ⟨row, spelled, rowKinded, pieces⟩
    refine ⟨row, ?_, rowKinded, pieces, spelled⟩
    intro empty
    rw [empty] at pieces
    cases pieces
  · intro rows
    rcases rows with ⟨row, nonempty, wellKinded, rfl, rfl⟩
    rw [List.map_append] at contents
    rcases List.map_eq_append_iff.mp contents with ⟨front, back, spelled, frontSame, backSame⟩
    rcases List.map_eq_singleton_iff.mp backSame with ⟨ending, rfl, endingSame⟩
    rcases Element.exists_row_alike wellKinded frontSame with ⟨alike, rfl, alikeKinded, pieces⟩
    match alike, pieces with
    | [], pieces => exact absurd (List.map_eq_nil_iff.mp pieces.symm) nonempty
    | first :: later, pieces =>
        exact ⟨first, later, ending, alikeKinded, (congrArg Prod.fst endingSame).trans ends,
          spelled, pieces.symm⟩

end Stencil.Template
