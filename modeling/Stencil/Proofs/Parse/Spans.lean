import Stencil.Proofs.Source.Adjoining

/-! # The spans of derived tokens

Every phrase is built by going from the first and the last of its parts alone. If the tokens that it
was derived from stand side by side, this is where all of them stand.
-/

namespace Stencil

open Text (bytes)

namespace Token

/-! ## Children that share out a span -/

def Tile : Nat → List Token → Nat → Prop
  | start, [], stop => start = stop
  | start, token :: later, stop =>
    token.span.start = start ∧ start ≤ token.span.stop ∧ Tile token.span.stop later stop

variable {start stop : Nat} {tokens : List Token}

theorem Tile.le (tile : Tile start tokens stop) : start ≤ stop := by
  induction tokens generalizing start with
  | nil => exact Nat.le_of_eq tile
  | cons token later induction =>
      rcases tile with ⟨_, forward, rest⟩
      exact Nat.le_trans forward (induction rest)

theorem Tile.getLast? (tile : Tile start tokens stop) {last : Token}
    (final : tokens.getLast? = some last) : start ≤ last.span.start ∧ last.span.stop = stop := by
  induction tokens generalizing start with
  | nil => cases final
  | cons token later induction =>
      rcases tile with ⟨begins, forward, rest⟩
      cases later with
      | nil =>
          rcases Option.some.inj final with rfl
          exact ⟨Nat.le_of_eq begins.symm, rest⟩
      | cons next more =>
          rw [List.getLast?_cons_cons] at final
          rcases induction rest final with ⟨ahead, stops⟩
          exact ⟨Nat.le_trans forward ahead, stops⟩

theorem Tile.span_ofChildren (tile : Tile start tokens stop) {first : Token}
    (head : tokens.head? = some first) (kind : Symbol) :
    (ofChildren kind tokens).span = ⟨start, stop, first.span.line, first.span.column⟩ := by
  rcases List.head?_eq_some_iff.mp head with ⟨later, rfl⟩
  have final := List.getLast?_eq_some_getLast (List.cons_ne_nil first later)
  rcases tile.getLast? final with ⟨ahead, stops⟩
  rcases tile with ⟨begins, _, rest⟩
  have before := rest.le
  unfold ofChildren
  rw [head, final]
  change first.span.cover _ = _
  rw [Span.cover, stops, begins, Nat.min_eq_left ahead, Nat.max_eq_right before]

end Token

namespace Derivation

variable {rules : List Rule} {derivation : Derivation} {before slice : List Char}

/-! ## Derivations from tokens side by side -/

theorem tile_parts {parts : List Derivation}
    (placed : ∀ part ∈ parts, ∀ before slice, Token.Adjoin before part.frontier slice →
      part.token.span = .ofSlice before slice)
    (adjoin : Token.Adjoin before (parts.flatMap frontier) slice) :
    Token.Tile (bytes before).length (parts.map token) (bytes (before ++ slice)).length := by
  induction parts generalizing before slice with
  | nil =>
      cases adjoin
      exact congrArg (fun whole => (bytes whole).length) (List.append_nil before).symm
  | cons part later induction =>
      rcases List.forall_mem_cons.mp placed with ⟨here, others⟩
      rw [List.flatMap_cons] at adjoin
      rcases adjoin.exists_of_append with ⟨own, rest, rfl, inner, outer⟩
      have span := here before own inner
      have tile := induction others outer
      rw [List.append_assoc] at tile
      refine ⟨by rw [span]; rfl, ?_, by rw [span]; exact tile⟩
      rw [span, Span.ofSlice, Text.bytes_append, List.length_append]
      exact Nat.le_add_right _ _

theorem Valid.span_token (valid : derivation.Valid rules)
    (adjoin : Token.Adjoin before derivation.frontier slice) :
    derivation.token.span = .ofSlice before slice := by
  induction valid generalizing before slice with
  | read token =>
      cases adjoin with
      | cons stands _ nothing =>
          cases nothing
          rw [List.append_nil]
          exact stands.span_eq
  | @built index rule parts _ kinds _ induction =>
      rw [frontier_built] at adjoin
      have placed : ∀ part ∈ parts, ∀ before slice, Token.Adjoin before part.frontier slice →
          part.token.span = .ofSlice before slice := fun part member _ _ => induction part member
      have tile := tile_parts placed adjoin
      cases parts with
      | nil => exact absurd kinds.symm rule.rhs_ne_nil
      | cons first later =>
          rw [List.flatMap_cons] at adjoin
          rcases adjoin.exists_of_append with ⟨own, rest, rfl, inner, _⟩
          have span := placed first List.mem_cons_self before own inner
          rw [token_built, tile.span_ofChildren rfl, span]
          rfl

theorem Valid.leaves_token (valid : derivation.Valid rules)
    (leafy : ∀ token ∈ derivation.frontier, token.isLeaf = true) :
    derivation.token.leaves = derivation.frontier := by
  induction valid with
  | read token => exact Token.leaves_of_isLeaf (leafy token (List.mem_singleton.mpr rfl))
  | @built index rule parts _ _ _ induction =>
      rw [frontier_built] at leafy
      rw [token_built, frontier_built, Token.leaves_ofChildren, List.flatMap_map]
      apply List.flatMap_congr
      intro part member
      apply induction part member
      intro token used
      exact leafy token (List.mem_flatMap.mpr ⟨part, member, used⟩)

theorem Valid.exists_of_mem_nodes (valid : derivation.Valid rules)
    (leafy : ∀ token ∈ derivation.frontier, token.isLeaf = true) {node : Token}
    (member : node ∈ derivation.token.nodes) :
    ∃ (part : Derivation) (front back : List Token), part.Valid rules ∧ part.token = node ∧
      derivation.frontier = front ++ part.frontier ++ back := by
  induction valid with
  | read token =>
      have leaf := leafy token (List.mem_singleton.mpr rfl)
      rw [Derivation.token, Token.nodes_of_isLeaf leaf] at member
      rcases List.mem_singleton.mp member with rfl
      exact ⟨.read node, [], [], .read node, rfl, by simp⟩
  | @built index rule parts numbered kinds valid induction =>
      rw [token_built, Token.nodes_ofChildren, ← token_built index] at member
      cases List.mem_cons.mp member with
      | inl itself =>
          exact ⟨.built index rule parts, [], [], .built numbered kinds valid, itself.symm, by simp⟩
      | inr below =>
          rw [List.flatMap_map] at below
          rcases List.mem_flatMap.mp below with ⟨part, among, inner⟩
          rcases List.append_of_mem among with ⟨left, right, rfl⟩
          simp only [frontier_built, List.flatMap_append, List.flatMap_cons] at leafy ⊢
          have own : ∀ token ∈ part.frontier, token.isLeaf = true := fun token used =>
            leafy token (List.mem_append_right _ (List.mem_append_left _ used))
          rcases induction part among own inner with ⟨sub, front, back, subValid, same, spelled⟩
          refine ⟨sub, left.flatMap frontier ++ front, back ++ right.flatMap frontier, subValid,
            same, ?_⟩
          rw [spelled]
          simp only [List.append_assoc]

end Derivation

/-! ## The nodes of a whole tree -/

/-- What a node of a tree says about itself is true of a source and of its tokens. -/
structure Token.InPlace (source : List Char) (tokens : List Token) (node : Token) : Prop where
  /-- It reaches from its first leaf to its last one, and only the end of the input has nothing
  behind it. -/
  ends : ∃ first last, node.leaves.head? = some first ∧ node.leaves.getLast? = some last ∧
    node.span = ⟨first.span.start, last.span.stop, first.span.line, first.span.column⟩ ∧
    node.lookahead = last.lookahead ∧ (node.lookahead = none ↔ last.kind = .endOfInput)
  tiled : node.isLeaf = false →
    node.children ≠ [] ∧ Token.Tile node.span.start node.children node.span.stop
  slice : ∃ before slice behind, source = before ++ (slice ++ behind) ∧
    node.span.start = (bytes before).length ∧
    node.span.stop = (bytes (before ++ slice)).length ∧
    node.leafText.toList = Source.unifyBreaks slice
  /-- Its leaves are tokens of the source in a row, and what it knows of its successor is the number
  of tokens in front of that and its kind. -/
  next : ∃ front back, tokens = front ++ (node.leaves ++ back) ∧
    node.lookahead = back.head?.map fun next => ⟨(front ++ node.leaves).length, next.kind⟩

def Token.Ended (tokens : List Token) : Prop :=
  ∃ inner ending, tokens = inner ++ [ending] ∧ ending.kind = .endOfInput ∧
    ∀ token ∈ inner, token.kind ≠ .endOfInput

theorem Token.Ended.eq_nil_iff {front back : List Token} (ended : Ended (front ++ back))
    {last : Token} (final : front.getLast? = some last) :
    back = [] ↔ last.kind = .endOfInput := by
  rcases ended with ⟨inner, ending, spelled, ends, others⟩
  rcases List.getLast?_eq_some_iff.mp final with ⟨upper, rfl⟩
  cases back using List.reverseRecOn with
  | nil =>
      rw [List.append_nil] at spelled
      have same := List.append_inj_right' spelled rfl
      rcases List.singleton_inj.mp same with rfl
      exact iff_of_true rfl ends
  | append_singleton more closing =>
      rw [← List.append_assoc] at spelled
      have within := List.append_inj_left' spelled rfl
      have unclosed : last.kind ≠ .endOfInput := others last (by simp [← within])
      exact iff_of_false (by simp) unclosed

namespace Derivation

variable {rules : List Rule} {root part : Derivation} {source : List Char} {tokens : List Token}

theorem Valid.ends_token {before slice : List Char} (valid : part.Valid rules)
    (adjoin : Token.Adjoin before part.frontier slice) :
    ∃ first last, part.frontier.head? = some first ∧ part.frontier.getLast? = some last ∧
      part.token.span = ⟨first.span.start, last.span.stop, first.span.line, first.span.column⟩ ∧
      part.token.lookahead = last.lookahead := by
  have nonempty := valid.frontier_ne_nil
  have head := List.head?_eq_some_head nonempty
  have final := List.getLast?_eq_some_getLast nonempty
  rcases adjoin.span_head? head with ⟨start, line, column⟩
  have stop := adjoin.span_getLast? final
  have known := valid.lookahead_token
  rw [final] at known
  refine ⟨_, _, head, final, ?_, known⟩
  rw [valid.span_token adjoin, start, line, column, stop]
  rfl

theorem Valid.tiled_token {before slice : List Char} (valid : part.Valid rules)
    (adjoin : Token.Adjoin before part.frontier slice) (inner : part.token.isLeaf = false) :
    part.token.children ≠ [] ∧
      Token.Tile (bytes before).length part.token.children (bytes (before ++ slice)).length := by
  cases valid with
  | read token =>
      have leaf := adjoin.isLeaf token (List.mem_singleton.mpr rfl)
      rw [Derivation.token, leaf] at inner
      cases inner
  | @built index rule parts _ kinds valid =>
      rw [frontier_built] at adjoin
      rw [token_built, Token.children_ofChildren]
      constructor
      · intro empty
        rw [List.map_eq_nil_iff.mp empty] at kinds
        exact rule.rhs_ne_nil kinds.symm
      · exact tile_parts (fun part member _ _ => (valid part member).span_token) adjoin

theorem Valid.next_token {front back : List Token} (valid : part.Valid rules)
    (linked : front ++ part.frontier ++ back = Token.link tokens) :
    part.token.lookahead =
      back.head?.map fun next => ⟨(front ++ part.frontier).length, next.kind⟩ := by
  have nonempty := valid.frontier_ne_nil
  rw [Token.link_eq_linkFrom] at linked
  have known := Token.lookahead_linkFrom linked.symm
    (List.append_ne_nil_of_right_ne_nil front nonempty)
  rw [valid.lookahead_token, ← List.getLast?_append_of_ne_nil front nonempty, known]
  simp only [Nat.zero_add]

theorem Valid.inPlace (valid : root.Valid rules) (linked : root.frontier = Token.link tokens)
    (adjoin : Token.Adjoin [] root.frontier source) (ended : Token.Ended root.frontier)
    {node : Token} (member : node ∈ root.token.nodes) : node.InPlace source root.frontier := by
  rcases valid.exists_of_mem_nodes adjoin.isLeaf member with
    ⟨part, front, back, partValid, rfl, spelled⟩
  rw [spelled] at adjoin ended linked
  rcases adjoin.exists_of_append with ⟨_, behind, rfl, inside, _⟩
  rcases inside.exists_of_append with ⟨before, slice, rfl, _, own⟩
  rw [List.nil_append] at own
  have span := partValid.span_token own
  have leaves := partValid.leaves_token own.isLeaf
  have next := partValid.next_token linked
  refine ⟨?_, ?_, ?_, ?_⟩
  · rcases partValid.ends_token own with ⟨first, last, head, final, reach, known⟩
    refine ⟨first, last, by rw [leaves, head], by rw [leaves, final], reach, known, ?_⟩
    have closing : (front ++ part.frontier).getLast? = some last := by
      rw [List.getLast?_append_of_ne_nil front partValid.frontier_ne_nil, final]
    rw [← ended.eq_nil_iff closing, next, Option.map_eq_none_iff, List.head?_eq_none_iff]
  · intro inner
    rw [span]
    exact partValid.tiled_token own inner
  · refine ⟨before, slice, behind, List.append_assoc _ _ _, by rw [span]; rfl, by rw [span]; rfl, ?_⟩
    rw [Token.leafText_eq, partValid.texts_token, own.spelled]
  · refine ⟨front, back, ?_, ?_⟩
    · rw [spelled, leaves, List.append_assoc]
    · rw [leaves, next]

end Derivation

end Stencil
