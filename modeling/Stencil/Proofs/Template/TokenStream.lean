import Stencil.Proofs.Source.Places
import Stencil.Proofs.Template.Reading

/-! # The tokens of a source

The tokens of a source end with the end of the input, and each knows its successor. Which kinds and
texts they may have depends on whether they stand in a placeholder, and that can be seen from the
braces in front of them.
-/

namespace Stencil

namespace Source

open Stencil.Lexeme

/-! ## Inside and outside placeholders -/

/-- Behind tokens of these kinds a placeholder is open: braces have been opened, and none have been
closed since. Braces opened in between change nothing, and a source may end before any close. -/
def Open (front : List Symbol) : Prop :=
  ∃ before between, front = before ++ .openBraces :: between ∧ .closeBraces ∉ between

theorem not_open_nil : ¬Open [] := by
  intro opened
  rcases opened with ⟨before, between, split, _⟩
  cases before <;> cases split

theorem concat_eq_append_cons {α : Type} {front before after : List α} {last own : α}
    (split : front ++ [last] = before ++ own :: after) :
    (front = before ∧ last = own ∧ after = []) ∨
      ∃ others, front = before ++ own :: others ∧ after = others ++ [last] := by
  rcases List.eq_nil_or_concat' after with rfl | ⟨others, final, rfl⟩
  · rcases List.append_singleton_inj.mp split with ⟨same, equal⟩
    exact .inl ⟨same, equal, rfl⟩
  · rw [← List.cons_append, ← List.append_assoc] at split
    rcases List.append_singleton_inj.mp split with ⟨same, rfl⟩
    exact .inr ⟨others, same, rfl⟩

theorem open_concat_iff {front : List Symbol} {kind : Symbol} :
    Open (front ++ [kind]) ↔ kind = .openBraces ∨ (kind ≠ .closeBraces ∧ Open front) := by
  constructor
  · intro opened
    rcases opened with ⟨before, between, split, unclosed⟩
    rcases concat_eq_append_cons split with ⟨_, opens, _⟩ | ⟨others, rfl, rfl⟩
    · exact .inl opens
    · rw [List.mem_append, not_or, List.mem_singleton] at unclosed
      exact .inr ⟨fun closes => unclosed.2 closes.symm, before, others, rfl, unclosed.1⟩
  · intro opened
    rcases opened with rfl | ⟨stays, before, between, rfl, unclosed⟩
    · exact ⟨front, [], rfl, nofun⟩
    · refine ⟨before, between ++ [kind], by simp, ?_⟩
      rw [List.mem_append, not_or, List.mem_singleton]
      exact ⟨unclosed, fun closes => stays closes.symm⟩

/-- Where the tokens of each kind may stand, and which texts they have. -/
inductive Suits (inside : Prop) : Symbol → List Char → Prop
  | blank {run : List Char} (outside : ¬inside) (nonempty : run ≠ []) (spacing : Spacing run) :
      Suits inside .blank run
  | newline : Suits inside .newline ['\n']
  | openBraces {spacing : List Char} (blank : Spacing spacing) :
      Suits inside .openBraces ('\x7b' :: '\x7b' :: spacing)
  | closeBraces {spacing : List Char} (within : inside) (blank : Spacing spacing) :
      Suits inside .closeBraces (spacing ++ ['\x7d', '\x7d'])
  | dot (within : inside) : Suits inside .dot ['.']
  | name {run : List Char} (within : inside) (named : IsName run) : Suits inside .name run
  | text {run : List Char} (nonempty : run ≠ [])
      (plain : ∀ character ∈ run,
        character ≠ ' ' ∧ character ≠ '\t' ∧ character ≠ '\n' ∧ character ≠ '\r')
      (closed : ¬['\x7b', '\x7b'] <:+: run)
      (single : inside → run = ['\x7b'] ∨ run = ['\x7d']) : Suits inside .text run

theorem Literal.not_infix {run behind : List Char} (literal : Literal (run ++ behind) run) :
    ¬['\x7b', '\x7b'] <:+: run := by
  intro opens
  rcases opens with ⟨before, after, rfl⟩
  apply literal.closed before.length
  · simp only [List.length_append, List.length_cons, List.length_nil]
    omega
  · refine ⟨after ++ behind, ?_⟩
    simp

theorem suits_brace {inside : Prop} {brace : Char} (single : brace = '\x7b' ∨ brace = '\x7d') :
    Suits inside .text [brace] := by
  refine .text (List.cons_ne_nil brace []) ?_ ?_ ?_
  · intro character member
    rcases List.mem_singleton.mp member with rfl
    rcases single with rfl | rfl <;> decide
  · intro opens
    exact Nat.not_succ_le_self 1 opens.length_le
  · intro _
    rcases single with rfl | rfl
    · exact .inl rfl
    · exact .inr rfl

/-- One token: it suits its place, and the mode behind it tells whether a placeholder is open. -/
theorem suits_of_first {mode next : Mode} {character : Char} {rest raw behind : List Char}
    {kind : Symbol} {front : List Symbol}
    (found : first mode character rest = .token kind raw behind next)
    (opened : mode ≠ .text ↔ Open front) :
    Suits (Open front) kind (tokenText kind raw).toList ∧
      (next ≠ .text ↔ Open (front ++ [kind])) := by
  have spelled : kind ≠ .newline → (tokenText kind raw).toList = raw := by
    intro other
    rw [tokenText, if_neg other, String.toList_ofList]
  have broken : (tokenText .newline raw).toList = ['\n'] := by
    rw [tokenText, if_pos rfl]
    rfl
  rw [open_concat_iff]
  cases mode with
  | text =>
      have outside : ¬Open front := fun inside => opened.mpr inside rfl
      have shows := ofText_of_first found
      generalize character :: rest = source at shows
      cases shows with
      | opening longest =>
          rw [spelled (by decide)]
          exact ⟨.openBraces longest.holds, by simp⟩
      | newline =>
          rw [broken]
          exact ⟨.newline, by simp [outside]⟩
      | blank nonempty longest =>
          rw [spelled (by decide)]
          exact ⟨.blank outside nonempty longest.holds, by simp [outside]⟩
      | text nonempty longest =>
          rw [spelled (by decide)]
          refine ⟨.text nonempty longest.holds.plain longest.holds.not_infix ?_, by simp [outside]⟩
          exact fun inside => absurd inside outside
  | placeholder =>
      have inside : Open front := opened.mp (by decide)
      have shows := ofPlaceholder_of_first found
      generalize character :: rest = source at shows
      cases shows with
      | closing blank =>
          rw [spelled (by decide)]
          exact ⟨.closeBraces inside blank, by simp⟩
      | opening longest =>
          rw [spelled (by decide)]
          exact ⟨.openBraces longest.holds, by simp⟩
      | dot => exact ⟨.dot inside, by simp [inside]⟩
      | newline =>
          rw [broken]
          exact ⟨.newline, by simp [inside]⟩
      | brace single =>
          rw [spelled (by decide)]
          exact ⟨suits_brace single, by simp [inside]⟩
      | name longest =>
          rw [spelled (by decide)]
          exact ⟨.name inside longest.holds, by simp [inside]⟩
  | name =>
      have inside : Open front := opened.mp (by decide)
      rcases ofName_of_first found with ⟨rfl, rfl, _, longest⟩
      rw [spelled (by decide)]
      exact ⟨.name inside longest.holds, by simp [inside]⟩

/-! ## Rows of tokens -/

def SuitsBehind (front : List Symbol) (token : Token) : Prop :=
  ∃ text, token.text? = some text ∧ Suits (Open front) token.kind text.toList

theorem Cuts.suits {mode : Mode} {place last : Place} {source : List Char}
    {tokens before after : List Token} {token : Token} {front : List Symbol}
    (cuts : Cuts mode place source tokens last) (opened : mode ≠ .text ↔ Open front)
    (split : tokens = before ++ token :: after) :
    SuitsBehind (front ++ before.map Token.kind) token := by
  induction cuts generalizing front before with
  | done => simp at split
  | token found _ induction =>
      have suits := suits_of_first found opened
      rcases List.cons_eq_append_iff.mp split with ⟨rfl, here⟩ | ⟨others, rfl, later⟩
      · rcases List.cons.inj here with ⟨rfl, rfl⟩
        rw [List.map_nil, List.append_nil]
        exact ⟨_, rfl, suits.1⟩
      · have behind := induction suits.2 later
        rwa [List.append_assoc] at behind
  | skipped _ _ induction => exact induction opened split

theorem Cuts.head_of_name {place last : Place} {source : List Char} {tokens : List Token}
    (cuts : Cuts .name place source tokens last) :
    ∃ name later, tokens = name :: later ∧ name.kind = .name := by
  cases cuts with
  | done complete => exact absurd rfl complete
  | token found _ => exact ⟨_, _, rfl, (ofName_of_first found).1⟩
  | skipped found _ => cases (of_skipped found).1

theorem mode_of_dot {mode next : Mode} {character : Char} {rest raw behind : List Char}
    (found : first mode character rest = .token .dot raw behind next) : next = .name := by
  cases mode with
  | text =>
      have shows := ofText_of_first found
      generalize character :: rest = source at shows
      cases shows
  | placeholder => exact (ofPlaceholder_of_first found).of_dot.2.2
  | name => cases (ofName_of_first found).1

theorem Cuts.named {mode : Mode} {place last : Place} {source : List Char}
    {tokens before after : List Token} {token : Token}
    (cuts : Cuts mode place source tokens last) (split : tokens = before ++ token :: after)
    (dot : token.kind = .dot) : ∃ name later, after = name :: later ∧ name.kind = .name := by
  induction cuts generalizing before with
  | done => simp at split
  | token found cuts induction =>
      rcases List.cons_eq_append_iff.mp split with ⟨rfl, here⟩ | ⟨others, rfl, later⟩
      · rcases List.cons.inj here with ⟨rfl, rfl⟩
        rcases dot with rfl
        rcases mode_of_dot found with rfl
        exact cuts.head_of_name
      · exact induction later
  | skipped _ _ induction => exact induction split

end Source

/-! ## Linked tokens -/

namespace Token

def summary (token : Token) : Symbol × Option String :=
  (token.kind, token.text?)

theorem map_summary_link (tokens : List Token) :
    (link tokens).map summary = tokens.map summary :=
  map_link (by simp [summary]) tokens

theorem map_kind_of_map_summary {left right : List Token}
    (same : left.map summary = right.map summary) : left.map kind = right.map kind := by
  have kinds := congrArg (List.map Prod.fst) same
  rwa [List.map_map, List.map_map] at kinds

theorem exists_split_of_link {tokens before after : List Token} {token : Token}
    (split : link tokens = before ++ token :: after) :
    ∃ front own back, tokens = front ++ own :: back ∧ front.map summary = before.map summary ∧
      own.summary = token.summary ∧ back.map summary = after.map summary := by
  have summaries := map_summary_link tokens
  rw [split, List.map_append, List.map_cons] at summaries
  rcases List.map_eq_append_iff.mp summaries.symm with ⟨front, others, rfl, sameFront, same⟩
  rcases List.map_eq_cons_iff.mp same with ⟨own, back, rfl, sameOwn, sameBack⟩
  exact ⟨front, own, back, rfl, sameFront, sameOwn, sameBack⟩

theorem lookahead_of_link {tokens : List Token} {index : Nat} {token : Token}
    (found : (link tokens)[index]? = some token) :
    token.lookahead = (link tokens)[index + 1]?.map fun next => ⟨index + 1, next.kind⟩ := by
  rw [link_eq_linkFrom] at found ⊢
  have inside : index < (linkFrom 1 tokens).length := (List.getElem?_eq_some_iff.mp found).1
  have front : (linkFrom 1 tokens).take (index + 1) =
      (linkFrom 1 tokens).take index ++ [token] := by
    rw [List.take_add_one, found]
    rfl
  have split : linkFrom (0 + 1) tokens =
      ((linkFrom 1 tokens).take index ++ [token]) ++ (linkFrom 1 tokens).drop (index + 1) := by
    rw [← front, List.take_append_drop]
  have shown := lookahead_linkFrom split (List.append_ne_nil_of_right_ne_nil _ (by simp))
  rw [List.getLast?_concat, List.head?_drop, Nat.zero_add, List.length_append,
    List.length_take_of_le (Nat.le_of_lt inside)] at shown
  exact shown

theorem exists_link_concat (tokens : List Token) (last : Token) :
    ∃ front final, link (tokens ++ [last]) = front ++ [final] ∧
      front.map summary = tokens.map summary ∧ final.summary = last.summary ∧
      final.lookahead = none := by
  have summaries := map_summary_link (tokens ++ [last])
  rw [List.map_append] at summaries
  rcases List.map_eq_append_iff.mp summaries with ⟨front, others, split, sameFront, same⟩
  rcases List.map_eq_singleton_iff.mp same with ⟨final, rfl, sameFinal⟩
  have found : (link (tokens ++ [last]))[front.length]? = some final := by simp [split]
  have next := lookahead_of_link found
  refine ⟨front, final, split, sameFront, sameFinal, ?_⟩
  rwa [split, List.getElem?_eq_none (by simp)] at next

/-- How the tokens of a source follow each other. -/
structure Stream (tokens : List Token) : Prop where
  terminal : ∀ token ∈ tokens, token.kind.isTerminal = true
  ended : ∃ front last, tokens = front ++ [last] ∧ last.kind = .endOfInput ∧
    last.text? = some "" ∧ last.lookahead = none ∧ ∀ token ∈ front, token.kind ≠ .endOfInput
  linked : ∀ index token, tokens[index]? = some token →
    token.lookahead = tokens[index + 1]?.map fun next => ⟨index + 1, next.kind⟩
  apart : Template.BlanksApart (tokens.map kind)
  named : ∀ before dot after, tokens = before ++ dot :: after → dot.kind = .dot →
    ∃ name later, after = name :: later ∧ name.kind = .name
  suits : ∀ before token next after, tokens = before ++ token :: next :: after →
    Source.SuitsBehind (before.map kind) token

end Token

namespace Source

/-- Whatever the source, its tokens are a stream. -/
theorem tokenizeText_stream {source : String} {tokens : List Token}
    (read : (tokenizeText source).value = .ok tokens) : Token.Stream tokens := by
  rcases value_tokenize_eq_ok_iff.mp read with ⟨later, last, cuts, rfl⟩
  have scanned := Template.scanned_of_cuts cuts
  have outside : Mode.text ≠ .text ↔ Open [] :=
    iff_of_false (fun differ => differ rfl) not_open_nil
  constructor
  case terminal => exact scanned.terminal
  case linked => exact fun index token found => Token.lookahead_of_link found
  case apart => exact scanned.apart
  case ended =>
    rcases Token.exists_link_concat later (endToken last) with
      ⟨front, final, split, sameFront, sameFinal, unfollowed⟩
    rcases Prod.mk.inj sameFinal with ⟨ends, empty⟩
    refine ⟨front, final, split, ends, empty, unfollowed, ?_⟩
    intro token member isEnd
    have listed := List.mem_map_of_mem (f := Token.kind) member
    rw [Token.map_kind_of_map_summary sameFront] at listed
    rcases List.mem_map.mp listed with ⟨other, among, sameKind⟩
    rcases List.append_of_mem among with ⟨before, after, whole⟩
    rcases cuts.suits outside whole with ⟨text, _, suits⟩
    rw [sameKind, isEnd] at suits
    cases suits
  case named =>
    intro before dot after split isDot
    rcases Token.exists_split_of_link split with ⟨front, own, back, whole, _, sameDot, sameAfter⟩
    have ownDot : own.kind = .dot := (Prod.mk.inj sameDot).1.trans isDot
    rcases concat_eq_append_cons whole with ⟨_, rfl, _⟩ | ⟨others, rfl, rfl⟩
    · cases ownDot
    · rcases cuts.named rfl ownDot with ⟨name, more, rfl, isName⟩
      rcases List.map_eq_cons_iff.mp sameAfter.symm with ⟨next, rest, rfl, sameNext, _⟩
      exact ⟨next, rest, rfl, (Prod.mk.inj sameNext).1.trans isName⟩
  case suits =>
    intro before token next after split
    rcases Token.exists_split_of_link split with
      ⟨front, own, back, whole, sameFront, sameOwn, sameBack⟩
    rcases concat_eq_append_cons whole with ⟨_, _, rfl⟩ | ⟨others, rfl, _⟩
    · cases sameBack
    · have suits := cuts.suits outside rfl
      rcases Prod.mk.inj sameOwn with ⟨sameKind, sameText⟩
      rwa [List.nil_append, Token.map_kind_of_map_summary sameFront, SuitsBehind, sameKind,
        sameText] at suits

theorem tokenizeText_stream_braced :
    ∃ tokens, (tokenizeText "a \t\r\n\x7b\x7b .Name \x7b Other \x7d\x7d z").value = .ok tokens ∧
      Token.Stream tokens := by
  have done :
      (tokenizeText "a \t\r\n\x7b\x7b .Name \x7b Other \x7d\x7d z").value.isOk = true := by
    decide +kernel
  rcases Attempt.exists_of_isOk done with ⟨tokens, read⟩
  exact ⟨tokens, read, tokenizeText_stream read⟩

end Source

end Stencil
