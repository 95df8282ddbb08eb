import Stencil.Proofs.Parse.Soundness
import Stencil.Proofs.Parse.Termination

/-! # Input that is not read

A decision is about the stack, and the stack knows nothing of the input that is still to come. So a
run goes the same way whatever stands behind the tokens that it takes, up to its end or to the point
where it asks for a token that is not there.
-/

namespace Stencil

namespace Parser

variable {parser : Parser} {state next : State}

/-! ## More input -/

def State.followedBy (state : State) (extra : List Token) : State :=
  ⟨state.stack, state.input ++ extra⟩

theorem State.Reduces.followedBy {index : Nat} {rule : Rule}
    (reduces : state.Reduces index rule next) (extra : List Token) :
    (state.followedBy extra).Reduces index rule (next.followedBy extra) := by
  cases reduces with
  | apply kinds below input => exact .apply kinds below (input ++ extra)

theorem Moves.followedBy (moves : Moves parser state next) (extra : List Token) :
    Moves parser (state.followedBy extra) (next.followedBy extra) := by
  cases moves with
  | shift decided => exact .shift decided
  | reduce decided reduces => exact .reduce decided (reduces.followedBy extra)

theorem Accepts.followedBy (accepts : Accepts parser state next) (extra : List Token) :
    Accepts parser (state.followedBy extra) (next.followedBy extra) := by
  cases accepts with
  | accept decided reduces => exact .accept decided (reduces.followedBy extra)

theorem Fails.followedBy {error : ParseError} (fails : Fails parser state error)
    (inside : error ≠ .pastEnd) (extra : List Token) :
    Fails parser (state.followedBy extra) error := by
  cases fails with
  | undecided decided => exact .undecided decided
  | pastEnd decided => exact absurd rfl inside
  | unreduced decided applies refused => exact .unreduced decided applies refused

theorem reaches_followedBy (reaches : Reaches parser state next) (extra : List Token) :
    Reaches parser (state.followedBy extra) (next.followedBy extra) := by
  induction reaches with
  | refl => exact .refl
  | tail _ moves induction => exact induction.tail (moves.followedBy extra)

/-! ## Whole runs -/

section Runs

variable {first : Token} {rest extra : List Token} {bound more : Nat}

theorem run_append_eq_ok (restores : parser.Restores)
    (finite : (parser.run more (State.initial first (rest ++ extra)).configuration []).value ≠
      .error .endless) {final : Configuration}
    (accepted : (parser.run bound (State.initial first rest).configuration []).value =
      .ok final) :
    (parser.run more (State.initial first (rest ++ extra)).configuration []).value =
      .ok ⟨final.stack, final.input ++ extra⟩ := by
  have ends := ends_run restores (State.initial_stack_ne_nil first rest) bound []
  rw [accepted] at ends
  cases ends with
  | accepted reaches accepts =>
      exact run_eq_of_accepts restores (State.initial_stack_ne_nil first (rest ++ extra)) finite
        (reaches_followedBy reaches extra) (accepts.followedBy extra)

theorem run_append_eq_error (restores : parser.Restores)
    (finite : (parser.run more (State.initial first (rest ++ extra)).configuration []).value ≠
      .error .endless) {error : ParseError} (inside : error ≠ .pastEnd)
    (enough : error ≠ .endless)
    (failed : (parser.run bound (State.initial first rest).configuration []).value =
      .error error) :
    (parser.run more (State.initial first (rest ++ extra)).configuration []).value =
      .error error := by
  have ends := ends_run restores (State.initial_stack_ne_nil first rest) bound []
  rw [failed] at ends
  cases ends with
  | failed reaches fails =>
      exact run_eq_of_fails restores (State.initial_stack_ne_nil first (rest ++ extra)) finite
        (reaches_followedBy reaches extra) (fails.followedBy inside extra)
  | exhausted => exact absurd rfl enough

end Runs

theorem value_finish_warn (parser : Parser) (stack : UndoStack Token)
    (input other : List Token) :
    (parser.finish .warn ⟨stack, input⟩).value = (parser.finish .warn ⟨stack, other⟩).value := by
  simp only [value_finish, reduceCtorEq, and_false, if_false]

theorem value_finish_refuse (parser : Parser) {configuration : Configuration}
    (left : configuration.input ≠ []) :
    (parser.finish .refuse configuration).value =
      .error (.trailingInput configuration.input.length) := by
  rw [value_finish, if_pos ⟨left, rfl⟩]

/-- The parser comes by itself to the end of a complete text, with so many tokens unread. -/
def AcceptsBefore (parser : Parser) (tokens : List Token) (unread : Nat) : Prop :=
  ∃ first rest steps final, tokens = first :: rest ∧
    Comes parser steps ⟨UndoStack.empty.push first, rest⟩ (.ok final) ∧
    final.input.length = unread

theorem Comes.value_run_eq_of_finite {parser : Parser} {steps bound : Nat}
    {configuration : Configuration} {outcome : Except ParseError Configuration}
    (comes : Comes parser steps configuration outcome) {earlier : List Event}
    (finite : (parser.run bound configuration earlier).value ≠ .error .endless) :
    (parser.run bound configuration earlier).value = outcome := by
  rcases exists_comes finite with ⟨fewer, _, answered⟩
  have left := answered.value_run_eq (Nat.le_max_left fewer steps) []
  have right := comes.value_run_eq (Nat.le_max_right fewer steps) []
  exact left.symm.trans right

end Parser

namespace Table

open Stencil.Parser

variable {grammar : Grammar}

theorem exists_acceptsBefore (phrases : grammar.BuildsPhrases) {trailing : TrailingPolicy}
    {tokens : List Token} {tree : Token}
    (parsed : ((ofGrammar grammar).parse trailing tokens).value = .ok tree) :
    ∃ unread, AcceptsBefore (ofGrammar grammar).parser tokens unread := by
  match tokens with
  | [] => cases parsed
  | first :: rest =>
      have finite := run_ne_endless phrases first rest
      rcases exists_comes finite with ⟨steps, _, comes⟩
      rw [parse, value_parse] at parsed
      generalize (run _ _ _ _).value = outcome at parsed comes
      cases outcome with
      | error error => cases parsed
      | ok final => exact ⟨_, first, rest, steps, final, rfl, comes, rfl⟩

theorem parse_warn_append_eq_ok (phrases : grammar.BuildsPhrases) {tokens : List Token}
    {tree : Token} (parsed : ((ofGrammar grammar).parse .warn tokens).value = .ok tree)
    (extra : List Token) :
    ((ofGrammar grammar).parse .warn (tokens ++ extra)).value = .ok tree := by
  match tokens with
  | [] => cases parsed
  | first :: rest =>
      rw [parse, value_parse] at parsed
      cases accepted : ((ofGrammar grammar).parser.run (stepBound (first :: rest))
          (State.initial first rest).configuration []).value with
      | error error =>
          rw [accepted] at parsed
          cases parsed
      | ok final =>
          rw [accepted] at parsed
          rw [parse, List.cons_append, value_parse,
            run_append_eq_ok (restores _) (run_ne_endless phrases first (rest ++ extra)) accepted]
          exact (value_finish_warn _ final.stack _ final.input).trans parsed

theorem parse_warn_append_eq_error (phrases : grammar.BuildsPhrases) {tokens : List Token}
    {error : ParseError} (begun : error ≠ .noTokens) (inside : error ≠ .pastEnd)
    (failed : ((ofGrammar grammar).parse .warn tokens).value = .error error)
    (extra : List Token) :
    ((ofGrammar grammar).parse .warn (tokens ++ extra)).value = .error error := by
  match tokens with
  | [] => exact absurd (Except.error.inj failed).symm begun
  | first :: rest =>
      have finite := run_ne_endless phrases first rest
      have longer := run_ne_endless phrases first (rest ++ extra)
      rw [parse, value_parse] at failed
      rw [parse, List.cons_append, value_parse]
      cases outcome : ((ofGrammar grammar).parser.run (stepBound (first :: rest))
          (State.initial first rest).configuration []).value with
      | error cause =>
          rw [outcome] at failed finite
          obtain rfl : cause = error := Except.error.inj failed
          have enough : cause ≠ .endless := fun endless => finite (congrArg Except.error endless)
          rw [run_append_eq_error (restores _) longer inside enough outcome]
      | ok final =>
          rw [outcome] at failed
          rw [run_append_eq_ok (restores _) longer outcome]
          exact (value_finish_warn _ final.stack _ final.input).trans failed

theorem parse_refuse_append (phrases : grammar.BuildsPhrases) {tokens : List Token}
    {unread : Nat} (accepts : AcceptsBefore (ofGrammar grammar).parser tokens unread)
    {extra : List Token} (left : 0 < unread + extra.length) :
    ((ofGrammar grammar).parse .refuse (tokens ++ extra)).value =
      .error (.trailingInput (unread + extra.length)) := by
  rcases accepts with ⟨first, rest, steps, final, rfl, comes, rfl⟩
  have accepted := comes.value_run_eq_of_finite (run_ne_endless phrases first rest)
  have longer := run_ne_endless phrases first (rest ++ extra)
  rw [parse, List.cons_append, value_parse, run_append_eq_ok (restores _) longer accepted]
  rw [← List.length_append] at left ⊢
  exact value_finish_refuse _ (List.ne_nil_of_length_pos left)

/-- Tokens behind the ones that a parse took are never looked at. If they may be left over, the
answer stays the same tree or the same error, unless the input was too short. If they may not, they
are all counted, whatever else would be wrong with what was accepted. -/
theorem parse_append {rules : List Rule} {grammar : Grammar}
    (accepted : Grammar.ofRules rules = .ok grammar)
    (phrases : ∀ rule ∈ rules, rule.lhs.isTerminal = false) (tokens extra : List Token) :
    (∀ tree, ((ofGrammar grammar).parse .warn tokens).value = .ok tree →
      ((ofGrammar grammar).parse .warn (tokens ++ extra)).value = .ok tree ∧
      ∃ unread, AcceptsBefore (ofGrammar grammar).parser tokens unread) ∧
    (∀ error, ((ofGrammar grammar).parse .warn tokens).value = .error error →
      error ≠ .noTokens → error ≠ .pastEnd →
      ((ofGrammar grammar).parse .warn (tokens ++ extra)).value = .error error) ∧
    ∀ unread, AcceptsBefore (ofGrammar grammar).parser tokens unread →
      0 < unread + extra.length →
      ((ofGrammar grammar).parse .refuse (tokens ++ extra)).value =
        .error (.trailingInput (unread + extra.length)) := by
  rcases Grammar.ofRules_eq_ok_iff.mp accepted with rfl
  refine ⟨?_, ?_, ?_⟩
  · intro tree parsed
    exact ⟨parse_warn_append_eq_ok phrases parsed extra, exists_acceptsBefore phrases parsed⟩
  · intro error failed begun inside
    exact parse_warn_append_eq_error phrases begun inside failed extra
  · intro unread accepts left
    exact parse_refuse_append phrases accepts left

theorem acceptsBefore_trailedTokens :
    AcceptsBefore (ofGrammar Template.grammar).parser trailedTokens 1 := by
  have left : ((ofGrammar Template.grammar).parser.run (stepBound trailedTokens)
      (State.initial trailedTokens[0] trailedTokens.tail).configuration []).value.toOption.map
        (·.input.length) = some 1 := by
    decide +kernel
  have phrases : Template.grammar.BuildsPhrases := by decide
  rcases exists_comes (run_ne_endless phrases trailedTokens[0] trailedTokens.tail) with
    ⟨steps, _, comes⟩
  change Comes _ steps _ (run _ (stepBound trailedTokens) _ []).value at comes
  generalize (run _ (stepBound trailedTokens) _ []).value = outcome at left comes
  cases outcome with
  | error error => cases left
  | ok final => exact ⟨_, _, steps, final, rfl, comes, Option.some.inj left⟩

theorem parse_append_trailedTokens :
    (∃ tree, ((ofGrammar Template.grammar).parse .warn trailedTokens).value = .ok tree ∧
      ((ofGrammar Template.grammar).parse .warn (trailedTokens ++ misledTokens)).value =
        .ok tree) ∧
    ((ofGrammar Template.grammar).parse .warn ([.ofChildren .source []] ++ trailedTokens)).value =
      .error (.decision 0 0 (.unusedSymbol .source)) ∧
    ((ofGrammar Template.grammar).parse .refuse (trailedTokens ++ misledTokens)).value =
      .error (.trailingInput 4) := by
  have accepted : Grammar.ofRules Template.rules = .ok Template.grammar :=
    Template.grammar.ofRules_rules
  have phrases : ∀ rule ∈ Template.rules, rule.lhs.isTerminal = false := by decide
  rcases parse_append accepted phrases trailedTokens misledTokens with ⟨kept, _, counted⟩
  rcases parse_append accepted phrases [.ofChildren .source []] trailedTokens with ⟨_, broken, _⟩
  refine ⟨?_, ?_, ?_⟩
  · have done : ((ofGrammar Template.grammar).parse .warn trailedTokens).value.isOk = true := by
      decide +kernel
    rcases Attempt.exists_of_isOk done with ⟨tree, parsed⟩
    exact ⟨tree, parsed, (kept tree parsed).1⟩
  · exact broken _ rfl nofun nofun
  · exact counted 1 acceptsBefore_trailedTokens (by decide)

end Table

end Stencil
