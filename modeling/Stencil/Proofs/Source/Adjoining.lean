import Stencil.Proofs.LeafTexts
import Stencil.Proofs.Source.LineBreaks
import Stencil.Proofs.Source.Places

/-! # Tokens side by side

Tokens that leave out nothing cover a stretch of the source together, from where the first of them
starts to where the last one stops. What they say, one after the other, is that stretch with a line
feed for every line break.
-/

namespace Stencil

open Text (bytes)

theorem Text.length_bytes_toList (text : String) :
    (bytes text.toList).length = text.utf8ByteSize := by
  rw [bytes, String.ofList_toList, toList_eq_toList_data]
  rfl

def Span.ofSlice (before slice : List Char) : Span :=
  ⟨(bytes before).length, (bytes (before ++ slice)).length, 1 + before.count '\n',
    1 + (before.rtakeWhile fun character => character ≠ '\n').length⟩

namespace Token

theorem StandsFor.span_eq {token : Token} {before slice : List Char}
    (stands : token.StandsFor before slice) : token.span = .ofSlice before slice := by
  rcases stands with ⟨start, stop, line, column, _⟩
  rw [Span.ofSlice, ← start, ← stop, ← line, ← column]

/-- Tokens that stand for a stretch of the source without anything in between. Only line breaks have
carriage returns. -/
inductive Adjoin : List Char → List Token → List Char → Prop
  | nil (before : List Char) : Adjoin before [] []
  | cons {before slice rest : List Char} {token : Token} {later : List Token}
      (stands : token.StandsFor before slice) (level : token.kind = .newline ∨ '\r' ∉ slice)
      (adjoin : Adjoin (before ++ slice) later rest) :
      Adjoin before (token :: later) (slice ++ rest)

variable {before whole : List Char} {tokens front back : List Token}

theorem Adjoin.append {slice rest : List Char} (adjoin : Adjoin before front slice)
    (behind : Adjoin (before ++ slice) back rest) :
    Adjoin before (front ++ back) (slice ++ rest) := by
  induction adjoin with
  | nil before => rwa [List.append_nil] at behind
  | cons stands level _ induction =>
      rw [← List.append_assoc] at behind
      rw [List.append_assoc]
      exact .cons stands level (induction behind)

theorem Adjoin.exists_of_append (adjoin : Adjoin before (front ++ back) whole) :
    ∃ slice rest, whole = slice ++ rest ∧ Adjoin before front slice ∧
      Adjoin (before ++ slice) back rest := by
  induction front generalizing before whole with
  | nil => exact ⟨[], whole, rfl, .nil before, by rwa [List.append_nil]⟩
  | cons token later induction =>
      cases adjoin with
      | @cons _ first _ _ _ stands level adjoin =>
          rcases induction adjoin with ⟨slice, rest, rfl, inner, outer⟩
          refine ⟨first ++ slice, rest, by rw [List.append_assoc], .cons stands level inner, ?_⟩
          rwa [← List.append_assoc]

/-! ## What the tokens say -/

theorem StandsFor.exists_text {token : Token} {slice : List Char}
    (stands : token.StandsFor before slice) (level : token.kind = .newline ∨ '\r' ∉ slice) :
    ∃ text, token.text? = some text ∧
      ∀ rest, Source.unifyBreaks (slice ++ rest) = text.toList ++ Source.unifyBreaks rest := by
  rcases stands.text with ⟨newline, text, breaks⟩ | ⟨other, text⟩
  · refine ⟨"\n", text, ?_⟩
    intro rest
    cases breaks with
    | inl feed =>
        rw [feed, List.singleton_append, Source.unifyBreaks_cons (by decide)]
        rfl
    | inr both =>
        rw [both]
        rfl
  · refine ⟨_, text, ?_⟩
    intro rest
    rw [Source.unifyBreaks_append (level.resolve_left other), String.toList_ofList]

theorem isLeaf_of_text? {token : Token} {text : String} (shown : token.text? = some text) :
    token.isLeaf = true := by
  cases token with
  | leaf => rfl
  | node => cases shown

theorem texts_of_text? {token : Token} {text : String} (shown : token.text? = some text) :
    token.texts = [text] := by
  cases token with
  | leaf kind other =>
      rcases Option.some.inj shown with rfl
      rfl
  | node => cases shown

theorem Adjoin.isLeaf (adjoin : Adjoin before tokens whole) :
    ∀ token ∈ tokens, token.isLeaf = true := by
  induction adjoin with
  | nil => exact nofun
  | cons stands level _ induction =>
      rcases stands.exists_text level with ⟨text, shown, _⟩
      exact List.forall_mem_cons.mpr ⟨isLeaf_of_text? shown, induction⟩

theorem Adjoin.spelled (adjoin : Adjoin before tokens whole) :
    (String.join (tokens.flatMap texts)).toList = Source.unifyBreaks whole := by
  induction adjoin with
  | nil => simp [Source.unifyBreaks]
  | cons stands level _ induction =>
      rcases stands.exists_text level with ⟨text, shown, spelled⟩
      rw [List.flatMap_cons, texts_of_text? shown, List.singleton_append, String.join_cons,
        String.toList_append, induction, spelled]

/-! ## Where the tokens stand -/

theorem Adjoin.span_head? (adjoin : Adjoin before tokens whole) {first : Token}
    (head : tokens.head? = some first) : first.span.start = (bytes before).length ∧
      first.span.line = 1 + before.count '\n' ∧
      first.span.column = 1 + (before.rtakeWhile fun character => character ≠ '\n').length := by
  cases adjoin with
  | nil => cases head
  | cons stands =>
      rcases Option.some.inj head with rfl
      exact ⟨stands.start, stands.line, stands.column⟩

theorem Adjoin.span_getLast? (adjoin : Adjoin before tokens whole) {last : Token}
    (final : tokens.getLast? = some last) :
    last.span.stop = (bytes (before ++ whole)).length := by
  induction adjoin with
  | nil => cases final
  | @cons before slice rest token later stands level adjoin induction =>
      rw [← List.append_assoc]
      cases adjoin with
      | nil =>
          rcases Option.some.inj final with rfl
          rw [List.append_nil]
          exact stands.stop
      | cons => exact induction (by rwa [List.getLast?_cons_cons] at final)

/-! ## What comes next -/

theorem Adjoin.linkFrom (adjoin : Adjoin before tokens whole) (index : Nat) :
    Adjoin before (linkFrom index tokens) whole := by
  induction adjoin generalizing index with
  | nil before => exact .nil before
  | cons stands level _ induction =>
      refine .cons ((standsFor_withLookahead _ _ _ _).mpr stands) ?_ (induction (index + 1))
      rwa [kind_withLookahead]

theorem Adjoin.link (adjoin : Adjoin before tokens whole) : Adjoin before (link tokens) whole := by
  rw [link_eq_linkFrom]
  exact adjoin.linkFrom 1

end Token

/-! ## Tokens that are cut off -/

namespace Source

theorem not_mem_opening {spacing : List Char} (blank : Spacing spacing) :
    '\r' ∉ '\x7b' :: '\x7b' :: spacing := by
  have free : '\r' ∉ spacing := blank.not_mem rfl
  simp [free]

theorem level_of_first {mode next : Mode} {character : Char} {rest raw behind : List Char}
    {kind : Symbol} (found : Lexeme.first mode character rest = .token kind raw behind next) :
    kind = .newline ∨ '\r' ∉ raw := by
  cases mode with
  | text =>
      have shows := ofText_of_first found
      generalize character :: rest = source at shows
      cases shows with
      | opening longest => exact .inr (not_mem_opening longest.holds)
      | newline => exact .inl rfl
      | blank _ longest => exact .inr (longest.holds.not_mem rfl)
      | text _ longest => exact .inr fun member => (longest.holds.plain _ member).2.2.2 rfl
  | placeholder =>
      have shows := ofPlaceholder_of_first found
      generalize character :: rest = source at shows
      cases shows with
      | @closing spacing _ blank =>
          have free : '\r' ∉ spacing := blank.not_mem rfl
          exact .inr (by simp [free])
      | opening longest => exact .inr (not_mem_opening longest.holds)
      | dot => exact .inr (by decide)
      | newline => exact .inl rfl
      | brace single => exact .inr (by obtain rfl | rfl := single <;> decide)
      | name longest => exact .inr (not_mem_of_isName longest.holds (by decide +kernel))
  | name =>
      rcases ofName_of_first found with ⟨rfl, rfl, named, longest⟩
      exact .inr (not_mem_of_isName longest.holds (by decide +kernel))

theorem adjoin_of_first {mode next : Mode} {character : Char} {rest raw behind : List Char}
    {kind : Symbol} (found : Lexeme.first mode character rest = .token kind raw behind next)
    {before slice : List Char} {later : List Token}
    (adjoin : Token.Adjoin (before ++ raw) later slice) :
    Token.Adjoin before (tokenAt (Place.origin.after before) kind raw :: later) (raw ++ slice) :=
  .cons (standsFor_tokenAt found before) (level_of_first found) adjoin

end Source

end Stencil
