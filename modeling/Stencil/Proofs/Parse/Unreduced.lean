import Stencil.Proofs.Table.Driving
import Stencil.Proofs.Table.Failures

/-! # Reductions that fail

A decision among several items has looked at the whole right-hand side of the rule, so the reduction
that it asks for succeeds. Only an item without rivals can ask for a reduction that fails, and then it
fails below the symbol on top. Some failures that the types allow never come about.
-/

namespace Stencil

namespace Parser

variable {parser : Parser}

def StepsTo (parser : Parser) (configuration next : Configuration) : Prop :=
  (parser.step configuration).value = .next next

theorem stepsTo_of_reaches (restores : parser.Restores) {state last : State}
    (reaches : Reaches parser state last) :
    Relation.ReflTransGen parser.StepsTo state.configuration last.configuration := by
  induction reaches with
  | refl => exact .refl
  | tail _ moves induction => exact induction.tail ((Leads.next moves).value_step restores)

/-- Where the error of a parse comes from: there is no input, a step fails, or what is left in the
end is not a single complete text. -/
theorem parse_eq_error_cases (restores : parser.Restores) {trailing : TrailingPolicy}
    {tokens : List Token} {error : ParseError}
    (failed : (parser.parse trailing tokens).value = .error error) :
    error = .noTokens ∨ error = .endless ∨
    (∃ first rest last, tokens = first :: rest ∧
      Reaches parser (State.initial first rest) last ∧ Fails parser last error) ∨
    (∃ count, error = .trailingInput count) ∨ (∃ count, error = .leftoverStack count) ∨
    ∃ kind, error = .wrongRoot parser.start kind := by
  match tokens with
  | [] =>
      cases failed
      exact .inl rfl
  | first :: rest =>
      rw [value_parse] at failed
      have ends := ends_run restores (State.initial_stack_ne_nil first rest)
        (stepBound (first :: rest)) []
      generalize (parser.run _ _ _).value = answer at ends failed
      cases ends with
      | exhausted =>
          cases failed
          exact .inr (.inl rfl)
      | failed reaches fails =>
          cases failed
          exact .inr (.inr (.inl ⟨first, rest, _, rfl, reaches, fails⟩))
      | accepted reaches accepts =>
          right; right; right
          cases accepts with
          | accept decided reduces =>
              cases reduces with
              | @apply parts kinds below input =>
                  dsimp only at failed
                  rw [value_finish] at failed
                  split at failed
                  · cases failed
                    exact .inl ⟨_, rfl⟩
                  · right
                    cases below with
                    | nil =>
                        right
                        change (if _ then _ else _) = _ at failed
                        split at failed
                        · cases failed
                        · cases failed
                          exact ⟨_, rfl⟩
                    | cons second more =>
                        cases failed
                        exact .inl ⟨_, rfl⟩

end Parser

namespace Table

open Stencil.Parser

/-! ## Errors of decisions -/

theorem decide_eq_error_cases {table : Table} {top : Token} {below : List Token}
    {lookahead : Option Symbol} {error : DecisionError}
    (failed : (table.decide ⟨top :: below, []⟩ lookahead).1 = .error error) :
    error = .unusedSymbol top.kind ∨ (∃ fitting, error = .ambiguous top.kind fitting) ∨
      error.OfItem := by
  match items : table.items.get top.kind with
  | [] =>
      change (table.probe ⟨top :: below, []⟩ lookahead).1 = _ at failed
      simp only [probe, UndoStack.pop, items] at failed
      cases failed
      exact .inl rfl
  | [item] =>
      rw [decide_of_single items] at failed
      cases next : item.lookaheads.contains lookahead with
      | false =>
          rw [decideAlone_of_not_contains next] at failed
          cases failed
          exact .inr (.inr trivial)
      | true =>
          rw [decideAlone_of_contains next] at failed
          split at failed
          · cases failed
            exact .inr (.inr trivial)
          · cases failed
  | first :: second :: more =>
      have several : 2 ≤ (table.items.get top.kind).length := by simp [items]
      rcases decide_cases several with ⟨action, decided⟩ | ⟨_, decided⟩ |
        ⟨cause, decided, rank, member, _⟩ <;> rw [decided] at failed <;> cases failed
      · exact .inr (.inl ⟨_, rfl⟩)
      · exact .inr (.inr (ofItem_of_mem_failures member))

/-! ## Reductions that a table asks for -/

section Reductions

variable {grammar : Grammar} {top : Token} {below : List Token} {lookahead : Option Symbol}
  {index : Nat} {rule : Rule} {action : Action}

theorem expected_of_applies {symbol : Symbol} {item : Item}
    (member : item ∈ (ofGrammar grammar).items.get symbol)
    (applies : item.action = .reduce index rule ∨ item.action = .accept index rule) :
    item.rule = rule ∧ item.expected = rule.stackOrder ∧ rule.stackOrder.head? = some symbol := by
  rcases mem_items_iff.mp member with ⟨number, own, before, after, _, split, rfl⟩
  have order := Item.stackOrder_of_split split
  cases after with
  | nil =>
      have same : own = rule := by
        unfold Item.atPlace at applies
        dsimp only at applies
        split at applies <;> simp at applies <;> exact applies.2
      subst same
      exact ⟨rfl, by rw [Item.expected_atPlace, order]; rfl, by rw [order]; rfl⟩
  | cons next later => simp [Item.atPlace] at applies

theorem reduce_of_several (several : 2 ≤ ((ofGrammar grammar).items.get top.kind).length)
    (decided : ((ofGrammar grammar).decide ⟨top :: below, []⟩ lookahead).1 = .ok action)
    (applies : action = .reduce index rule ∨ action = .accept index rule) :
    (rule.reduce ⟨top :: below, []⟩).1 = .ok () := by
  rcases (decide_eq_ok_iff several action).mp decided with ⟨⟨item, member, fits⟩, agree⟩
  rw [← agree item member fits] at applies
  have shown := (Item.fits_iff.mp fits).2.1
  rw [(expected_of_applies member applies).2.1] at shown
  exact Rule.reduce_of_stackOrder_prefix shown

theorem single_of_reduce_eq_error
    (decided : ((ofGrammar grammar).decide ⟨top :: below, []⟩ lookahead).1 = .ok action)
    (applies : action = .reduce index rule ∨ action = .accept index rule) {cause : ReduceError}
    (refused : (rule.reduce ⟨top :: below, []⟩).1 = .error cause) :
    ∃ item, (ofGrammar grammar).items.get top.kind = [item] ∧ item.rule = rule ∧
      ∃ matched deeper, matched ≠ [] ∧ rule.stackOrder = matched ++ cause.expected :: deeper ∧
        matched <+: (top :: below).map Token.kind ∧ cause.lhs = rule.lhs ∧
        cause.got = ((top :: below).map Token.kind)[matched.length]? ∧
        cause.got ≠ some cause.expected ∧ cause.preceding = matched.getLast? := by
  rcases exists_of_decide_eq_ok decided with ⟨item, member, rfl, _⟩
  rcases expected_of_applies member applies with ⟨own, _, head⟩
  rcases Rule.exists_of_reduce_eq_error refused with
    ⟨matched, deeper, order, shown, lhs, got, differs, preceding⟩
  have alone : (ofGrammar grammar).items.get top.kind = [item] := by
    match items : (ofGrammar grammar).items.get top.kind with
    | [] => simp [items] at member
    | [only] =>
        rw [items, List.mem_singleton] at member
        rw [member]
    | first :: second :: more =>
        have several : 2 ≤ ((ofGrammar grammar).items.get top.kind).length := by simp [items]
        rw [reduce_of_several several decided applies] at refused
        cases refused
  refine ⟨item, alone, own, matched, deeper, ?_, order, shown, lhs, got, differs, preceding⟩
  rintro rfl
  rw [order] at head
  exact differs (got.trans head.symm)

end Reductions

/-! ## Parses -/

theorem exists_of_fails_reduce {grammar : Grammar} {state : State} {line column : Nat}
    {cause : ReduceError}
    (fails : Fails (ofGrammar grammar).parser state (.reduce line column cause)) :
    ∃ top below item matched deeper, state.configuration.stack = ⟨top :: below, []⟩ ∧
      (line, column) = (top.span.line, top.span.column) ∧
      (ofGrammar grammar).items.get top.kind = [item] ∧ 2 ≤ item.rule.length ∧
      item.rule.stackOrder = matched ++ cause.expected :: deeper ∧
      matched <+: (top :: below).map Token.kind ∧
      cause.lhs = item.rule.lhs ∧
      cause.got = ((top :: below).map Token.kind)[matched.length]? ∧
      cause.got ≠ some cause.expected ∧
      cause.preceding = matched.getLast? ∧ cause.preceding.isSome = true := by
  cases fails with
  | unreduced decided applies refused =>
      rw [decision_cons] at decided
      rcases single_of_reduce_eq_error decided applies refused with
        ⟨item, alone, rfl, matched, deeper, nonempty, order, shown, lhs, got, differs, preceding⟩
      have length : 2 ≤ item.rule.length := by
        have size := List.length_pos_iff.mpr nonempty
        rw [← Rule.length_stackOrder, order, List.length_append, List.length_cons]
        omega
      have present : cause.preceding.isSome = true := by
        rw [preceding]
        exact List.getLast?_isSome.mpr nonempty
      exact ⟨_, _, item, matched, deeper, rfl, rfl, alone, length, order, shown, lhs, got, differs,
        preceding, present⟩

theorem ne_impossible_of_fails {grammar : Grammar} {state : State} {error : ParseError}
    (fails : Fails (ofGrammar grammar).parser state error) :
    error ≠ .notAccepted ∧ (∀ line column, error ≠ .decision line column .emptyStack) ∧
      ∀ line column symbol, error ≠ .decision line column (.nothingFits symbol) := by
  cases fails with
  | pastEnd => exact ⟨nofun, nofun, nofun⟩
  | unreduced => exact ⟨nofun, nofun, nofun⟩
  | undecided decided =>
      rw [decision_cons] at decided
      rcases decide_eq_error_cases decided with rfl | ⟨fitting, rfl⟩ | own
      · exact ⟨nofun, nofun, nofun⟩
      · exact ⟨nofun, nofun, nofun⟩
      · refine ⟨nofun, ?_, ?_⟩ <;> intros <;> intro same <;> cases same <;> exact own

theorem ne_impossible_of_parse_eq_error {grammar : Grammar} {trailing : TrailingPolicy}
    {tokens : List Token} {error : ParseError}
    (failed : ((ofGrammar grammar).parse trailing tokens).value = .error error) :
    error ≠ .notAccepted ∧ (∀ line column, error ≠ .decision line column .emptyStack) ∧
      ∀ line column symbol, error ≠ .decision line column (.nothingFits symbol) := by
  rcases parse_eq_error_cases (ofGrammar grammar).restores failed with
    rfl | rfl | ⟨_, _, _, _, _, fails⟩ | ⟨_, rfl⟩ | ⟨_, rfl⟩ | ⟨_, rfl⟩
  · exact ⟨nofun, nofun, nofun⟩
  · exact ⟨nofun, nofun, nofun⟩
  · exact ne_impossible_of_fails fails
  · exact ⟨nofun, nofun, nofun⟩
  · exact ⟨nofun, nofun, nofun⟩
  · exact ⟨nofun, nofun, nofun⟩

/-- A parse fails in a reduction only where the symbol on top has a single item, and the rule of that
item has further symbols. From the last one on they were found down to the one that is told as
preceding, and below it lies something else than expected. Behind a decision among several items
reductions succeed. The stack never runs empty, and a decision never fails without a cause. -/
theorem parse_eq_reduce_error (grammar : Grammar) (trailing : TrailingPolicy)
    (tokens : List Token) :
    (∀ line column cause,
      ((ofGrammar grammar).parse trailing tokens).value = .error (.reduce line column cause) →
      ∃ first rest top below input item matched deeper, tokens = first :: rest ∧
        Relation.ReflTransGen (ofGrammar grammar).parser.StepsTo
          ⟨UndoStack.empty.push first, rest⟩ ⟨⟨top :: below, []⟩, input⟩ ∧
        ((ofGrammar grammar).parser.step ⟨⟨top :: below, []⟩, input⟩).value =
          .failed (.reduce line column cause) ∧
        (line, column) = (top.span.line, top.span.column) ∧
        (ofGrammar grammar).items.get top.kind = [item] ∧ 2 ≤ item.rule.length ∧
        item.rule.stackOrder = matched ++ cause.expected :: deeper ∧
        matched <+: (top :: below).map Token.kind ∧
        cause.lhs = item.rule.lhs ∧
        cause.got = ((top :: below).map Token.kind)[matched.length]? ∧
        cause.got ≠ some cause.expected ∧
        cause.preceding = matched.getLast? ∧ cause.preceding.isSome = true) ∧
    (∀ top below lookahead action index rule,
      2 ≤ ((ofGrammar grammar).items.get (Token.kind top)).length →
      ((ofGrammar grammar).decide ⟨top :: below, []⟩ lookahead).1 = .ok action →
      action = .reduce index rule ∨ action = .accept index rule →
      (rule.reduce ⟨top :: below, []⟩).1 = .ok ()) ∧
    ((ofGrammar grammar).parse trailing tokens).value ≠ .error .notAccepted ∧
    (∀ line column, ((ofGrammar grammar).parse trailing tokens).value ≠
      .error (.decision line column .emptyStack)) ∧
    ∀ line column symbol, ((ofGrammar grammar).parse trailing tokens).value ≠
      .error (.decision line column (.nothingFits symbol)) := by
  have restores := (ofGrammar grammar).restores
  refine ⟨?_, ?_, ?_, ?_, ?_⟩
  · intro line column cause failed
    rcases parse_eq_error_cases restores failed with
      none | endless | ⟨first, rest, last, tokens, reaches, fails⟩ | ⟨_, more⟩ | ⟨_, left⟩ |
        ⟨_, root⟩
    · cases none
    · cases endless
    · rcases exists_of_fails_reduce fails with ⟨top, below, item, matched, deeper, stack, facts⟩
      have runs := stepsTo_of_reaches restores reaches
      have stops := (Leads.failed fails).value_step restores
      have place : last.configuration = ⟨⟨top :: below, []⟩, last.input⟩ := by
        rw [← stack]
        rfl
      rw [place] at runs stops
      exact ⟨first, rest, top, below, last.input, item, matched, deeper, tokens, runs, stops, facts⟩
    · cases more
    · cases left
    · cases root
  · intro top below lookahead action index rule several decided applies
    exact reduce_of_several several decided applies
  · exact fun failed => (ne_impossible_of_parse_eq_error failed).1 rfl
  · exact fun line column failed => (ne_impossible_of_parse_eq_error failed).2.1 line column rfl
  · exact fun line column symbol failed =>
      (ne_impossible_of_parse_eq_error failed).2.2 line column symbol rfl

theorem parse_eq_reduce_error_ending :
    ((ofGrammar Template.grammar).parse .warn [.leaf .endOfInput "" .nowhere none]).value =
      .error (.reduce 0 0 ⟨.source, .elements, none, some .endOfInput⟩) ∧
    (∃ symbol item, (ofGrammar Template.grammar).items.get symbol = [item] ∧
      item.rule.lhs = .source ∧ 2 ≤ item.rule.length) ∧
    2 ≤ ((ofGrammar Template.grammar).items.get .elements).length ∧
    ∃ rule : Rule, rule.rhs = [.element, .elements] ∧
      (rule.reduce ⟨[.leaf .elements "" .nowhere none, .leaf .element "" .nowhere none], []⟩).1 =
        .ok () := by
  rcases parse_eq_reduce_error Template.grammar .warn [.leaf .endOfInput "" .nowhere none] with
    ⟨fails, reduces, _⟩
  have failed :
      ((ofGrammar Template.grammar).parse .warn [.leaf .endOfInput "" .nowhere none]).value =
        .error (.reduce 0 0 ⟨.source, .elements, none, some .endOfInput⟩) := by
    decide +kernel
  have several : 2 ≤ ((ofGrammar Template.grammar).items.get .elements).length := by
    decide +kernel
  have decided : ((ofGrammar Template.grammar).decide
      ⟨[.leaf .elements "" .nowhere none, .leaf .element "" .nowhere none], []⟩
      (some .endOfInput)).1 =
        .ok (.reduce 2 { lhs := .elements, rhs := [.element, .elements] }) := by
    decide +kernel
  rcases fails 0 0 _ failed with
    ⟨_, _, top, _, _, item, _, _, _, _, _, _, alone, long, _, _, lhs, _⟩
  exact ⟨failed, ⟨top.kind, item, alone, lhs.symm, long⟩, several, _, rfl,
    reduces _ _ _ _ _ _ several decided (.inl rfl)⟩

end Table

end Stencil
