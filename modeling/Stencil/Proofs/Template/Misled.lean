import Stencil.Proofs.Table.Failures
import Stencil.Proofs.Template.Pieces

/-! # Tokens that mislead the parser

The parser believes what a token says about its successor. Tokens that say something wrong are parsed
by chance only, but a tree that comes out is the tree of a template all the same: in front of more
blanks the parser cannot decide what to do with a blank, so none are ever taken together.
-/

namespace Stencil.Template

open Stencil.Parser

/-- Whenever a blank could be left for more blanks to come, it could as well be the last one. -/
theorem exists_rival : ∀ item ∈ table.items.get .blank, item.action = .shift →
    ∃ rival ∈ table.items.get .blank, rival.action ≠ .shift ∧
      rival.expected = item.expected ∧ rival.preceding = item.preceding ∧
      ∀ lookahead ∈ none :: Symbol.all.map some,
        item.lookaheads.contains lookahead = true → rival.lookaheads.contains lookahead = true := by
  decide +kernel

theorem decision_ne_shift {top : Derivation} (blank : top.kind = .blank) (below : List Derivation)
    (input : List Token) :
    State.decision ⟨top :: below, input⟩ table.parser ≠ .ok .shift := by
  intro decided
  have kind : top.token.kind = .blank := top.kind_token.trans blank
  have several : 2 ≤ (table.items.get top.token.kind).length := by
    rw [kind]
    decide +kernel
  rw [Table.decision_cons, Table.decide_eq_ok_iff several] at decided
  rcases decided with ⟨⟨item, member, fits⟩, agree⟩
  have shifts := agree item member fits
  rw [kind] at member
  rcases exists_rival item member shifts with
    ⟨rival, rivalMember, differs, expected, preceding, next⟩
  have rivalFits : rival.Fits (top.token.lookahead.map (·.symbol))
      ((top.token :: below.map Derivation.token).map Token.kind) := by
    rcases fits with ⟨follows, deeper, shown, starts⟩
    refine ⟨next _ (mem_lookaheads _) follows, deeper, ?_, ?_⟩
    · rw [expected, shown]
    · rw [Item.mayStartAbove, preceding]
      exact starts
  rw [← kind] at rivalMember
  exact differs (agree rival rivalMember rivalFits)

/-! ## The way of the parser -/

/-- No blanks on the stack have been taken together, and nothing lies above a blank. -/
structure Separated (state : State) : Prop where
  valid : ∀ part ∈ state.stack, part.Valid separateRules
  uncovered : ∀ part ∈ state.stack.tail, part.kind ≠ .blank

namespace Separated

variable {state next : State}

theorem initial (first : Token) (rest : List Token) : Separated (State.initial first rest) where
  valid := List.forall_mem_singleton.mpr (.read first)
  uncovered := nofun

theorem reduce (separated : Separated state) {index : Nat} {rule : Rule}
    (numbered : rules[index]? = some rule) (reduces : state.Reduces index rule next) :
    Separated next := by
  cases reduces with
  | @apply parts kinds below input =>
      rcases separated with ⟨valid, uncovered⟩
      have other : index ≠ 9 := by
        intro last
        subst last
        cases numbered
        have shown : parts.map Derivation.kind = [.blank, .blanks] := kinds
        simp only [List.map_eq_cons_iff, List.map_eq_nil_iff] at shown
        rcases shown with ⟨left, _, rfl, leftKind, right, _, rfl, _, rfl⟩
        exact uncovered left (by simp) leftKind
      constructor
      · refine List.forall_mem_cons.mpr ⟨?_, fun part member => valid part (by simp [member])⟩
        refine .built (getElem?_separateRules.mpr ⟨other, numbered⟩) kinds ?_
        exact fun part member => valid part (by simp [member])
      · intro part member
        have nonempty : parts.reverse ≠ [] := by
          intro empty
          rw [List.reverse_eq_nil_iff.mp empty] at kinds
          exact rule.rhs_ne_nil kinds.symm
        apply uncovered
        rw [List.tail_append_of_ne_nil nonempty]
        exact List.mem_append_right _ member

theorem move (separated : Separated state) (moves : Moves table.parser state next) :
    Separated next := by
  cases moves with
  | @shift top below token input decided =>
      have covered : top.kind ≠ .blank := fun blank => decision_ne_shift blank _ _ decided
      exact ⟨List.forall_mem_cons.mpr ⟨.read token, separated.valid⟩,
        List.forall_mem_cons.mpr ⟨covered, separated.uncovered⟩⟩
  | reduce decided reduces => exact separated.reduce (Table.getElem?_of_reduce decided) reduces

theorem reach (separated : Separated state) (reaches : Reaches table.parser state next) :
    Separated next := by
  induction reaches with
  | refl => exact separated
  | tail _ moves induction => exact induction.move moves

theorem accept (separated : Separated state) (accepts : Accepts table.parser state next) :
    Separated next := by
  cases accepts with
  | accept decided reduces => exact separated.reduce (Table.of_accept decided).1 reduces

end Separated

/-- Whatever the tokens say about their successors, the tree of a parse is the tree of a row of
elements and an end, and has one piece for every element. -/
theorem exists_pieces_of_parse {trailing : TrailingPolicy} {tokens : List Token} {tree : Token}
    (leafy : ∀ token ∈ tokens, token.isLeaf = true)
    (terminal : ∀ token ∈ tokens, token.kind.isTerminal = true)
    (parsed : (table.parse trailing tokens).value = .ok tree) :
    ∃ (first : Element) (later : List Element) (ending : Token) (unread : List Token),
      (∀ element ∈ first :: later, element.WellKinded) ∧ ending.kind = .endOfInput ∧
      tokens = (first :: later).flatMap Element.tokens ++ ending :: unread ∧
      (trailing = .refuse → unread = []) ∧ tree = (whole first later ending).token ∧
      (Piece.ofTree tree).value = .ok ((first :: later).map Element.piece) := by
  rcases exists_of_parse_eq_ok (Table.restores table) parsed with
    ⟨token, rest, last, root, unread, rfl, reaches, accepts, rfl, start, allowed⟩
  have separated := ((Separated.initial token rest).reach reaches).accept accepts
  rcases Table.accepted_root reaches accepts with ⟨_, _, _, _, _, _, spelled⟩
  have separate : Separate root := by
    refine ⟨separated.valid root List.mem_cons_self, fun used member => terminal used ?_⟩
    rw [← spelled]
    exact List.mem_append_left _ member
  rw [Derivation.kind_token] at start
  rcases separate.exists_whole start with ⟨first, later, ending, wellKinded, ends, rfl⟩
  rw [(derives_whole wellKinded ends).frontier_eq] at spelled
  have leafyElements : ∀ element ∈ first :: later, element.Leafy := by
    intro element member used among
    apply leafy
    rw [← spelled]
    simp only [List.mem_append]
    exact .inl (.inl (List.mem_flatMap.mpr ⟨element, member, among⟩))
  refine ⟨first, later, ending, unread, wellKinded, ends, ?_, allowed, rfl,
    value_ofTree wellKinded leafyElements ends⟩
  rw [← spelled, List.append_assoc, List.singleton_append]

def misleadingTokens : List Token :=
  [.leaf .blank " " ⟨0, 1, 1, 1⟩ (some ⟨1, .text⟩),
    .leaf .blank "\t" ⟨1, 2, 1, 2⟩ (some ⟨7, .newline⟩),
    .leaf .openBraces "\x7b\x7b" ⟨2, 4, 1, 3⟩ (some ⟨3, .dot⟩),
    .leaf .dot "." ⟨4, 5, 1, 5⟩ (some ⟨4, .name⟩),
    .leaf .name "Name" ⟨5, 9, 1, 6⟩ (some ⟨5, .closeBraces⟩),
    .leaf .closeBraces "\x7d\x7d" ⟨9, 11, 1, 10⟩ (some ⟨6, .endOfInput⟩),
    .leaf .endOfInput "" ⟨11, 11, 1, 12⟩ none, .leaf .text "x" ⟨11, 12, 1, 12⟩ none]

theorem exists_pieces_of_parse_misleading :
    ∃ tree, (table.parse .warn misleadingTokens).value = .ok tree ∧
      ∃ (first : Element) (later : List Element) (ending : Token) (unread : List Token),
        (∀ element ∈ first :: later, element.WellKinded) ∧ ending.kind = .endOfInput ∧
        misleadingTokens = (first :: later).flatMap Element.tokens ++ ending :: unread ∧
        (TrailingPolicy.warn = .refuse → unread = []) ∧
        tree = (whole first later ending).token ∧
        (Piece.ofTree tree).value = .ok ((first :: later).map Element.piece) := by
  have done : (table.parse .warn misleadingTokens).value.isOk = true := by
    decide +kernel
  rcases Attempt.exists_of_isOk done with ⟨tree, parsed⟩
  exact ⟨tree, parsed, exists_pieces_of_parse (by decide) (by decide) parsed⟩

end Stencil.Template
