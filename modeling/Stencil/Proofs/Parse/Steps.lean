import Mathlib.Logic.Relation
import Stencil.Parse.Run
import Stencil.Proofs.Attempts
import Stencil.Proofs.Parse.Derivation
import Stencil.Proofs.Parse.Reducing

/-! # The steps of a parser

A parser is followed through states that remember how the tokens on the stack came about. A state
moves to at most one other state, so all runs from it that come to a halt end in the same state,
and that state says what the run answers.
-/

namespace Stencil.Parser

/-- Deciding changes nothing on a stack without pending pops. -/
def Restores (parser : Parser) : Prop :=
  ∀ elements lookahead, (parser.decide ⟨elements, []⟩ lookahead).2 = ⟨elements, []⟩

/-- A parser at work, with the derivations of the tokens on its stack from the top down. -/
structure State where
  stack : List Derivation
  input : List Token

namespace State

def configuration (state : State) : Configuration :=
  ⟨⟨state.stack.map Derivation.token, []⟩, state.input⟩

def lookahead (state : State) : Option Symbol :=
  (state.stack.head?.bind (·.token.lookahead)).map (·.symbol)

def decision (state : State) (parser : Parser) : Except DecisionError Action :=
  (parser.decide ⟨state.stack.map Derivation.token, []⟩ state.lookahead).1

inductive Reduces (index : Nat) (rule : Rule) : State → State → Prop
  | apply {parts : List Derivation} (kinds : parts.map Derivation.kind = rule.rhs)
      (below : List Derivation) (input : List Token) :
      Reduces index rule ⟨parts.reverse ++ below, input⟩ ⟨.built index rule parts :: below, input⟩

end State

inductive Moves (parser : Parser) : State → State → Prop
  | shift {top : Derivation} {below : List Derivation} {token : Token} {input : List Token}
      (decided : State.decision ⟨top :: below, token :: input⟩ parser = .ok .shift) :
      Moves parser ⟨top :: below, token :: input⟩ ⟨.read token :: top :: below, input⟩
  | reduce {index : Nat} {rule : Rule} {state next : State}
      (decided : state.decision parser = .ok (.reduce index rule))
      (reduces : state.Reduces index rule next) : Moves parser state next

inductive Accepts (parser : Parser) : State → State → Prop
  | accept {index : Nat} {rule : Rule} {state final : State}
      (decided : state.decision parser = .ok (.accept index rule))
      (reduces : state.Reduces index rule final) : Accepts parser state final

/-- A step that fails, with the place of the token on top. -/
inductive Fails (parser : Parser) : State → ParseError → Prop
  | undecided {top : Derivation} {below : List Derivation} {input : List Token}
      {cause : DecisionError}
      (decided : State.decision ⟨top :: below, input⟩ parser = .error cause) :
      Fails parser ⟨top :: below, input⟩
        (.decision top.token.span.line top.token.span.column cause)
  | pastEnd {top : Derivation} {below : List Derivation}
      (decided : State.decision ⟨top :: below, []⟩ parser = .ok .shift) :
      Fails parser ⟨top :: below, []⟩ .pastEnd
  | unreduced {top : Derivation} {below : List Derivation} {input : List Token} {action : Action}
      {index : Nat} {rule : Rule} {cause : ReduceError}
      (decided : State.decision ⟨top :: below, input⟩ parser = .ok action)
      (applies : action = .reduce index rule ∨ action = .accept index rule)
      (refused : (rule.reduce ⟨(top :: below).map Derivation.token, []⟩).1 = .error cause) :
      Fails parser ⟨top :: below, input⟩
        (.reduce top.token.span.line top.token.span.column cause)

inductive Leads (parser : Parser) (state : State) : Step → Prop
  | next {next : State} (moves : Moves parser state next) :
      Leads parser state (.next next.configuration)
  | accepted {final : State} (accepts : Accepts parser state final) :
      Leads parser state (.accepted final.configuration)
  | failed {error : ParseError} (fails : Fails parser state error) :
      Leads parser state (.failed error)

variable {parser : Parser} {state : State}

/-! ## Single steps -/

theorem value_step (restores : parser.Restores) (top : Derivation) (below : List Derivation)
    (input : List Token) :
    (parser.step (State.configuration ⟨top :: below, input⟩)).value =
      match State.decision ⟨top :: below, input⟩ parser with
      | .error cause => .failed (.decision top.token.span.line top.token.span.column cause)
      | .ok .shift => (stepShift (State.configuration ⟨top :: below, input⟩)).value
      | .ok (.reduce _ rule) =>
        (stepReduce rule top.token (State.configuration ⟨top :: below, input⟩) .next).value
      | .ok (.accept _ rule) =>
        (stepReduce rule top.token (State.configuration ⟨top :: below, input⟩)
          .accepted).value := by
  have same := restores ((top :: below).map Derivation.token)
    (top.token.lookahead.map (·.symbol))
  have decision : State.decision ⟨top :: below, input⟩ parser =
    (parser.decide ⟨(top :: below).map Derivation.token, []⟩
      (top.token.lookahead.map (·.symbol))).1 := rfl
  rw [decision]
  simp only [step, State.configuration, UndoStack.peek?, List.map_cons, List.head?_cons]
    at same ⊢
  generalize parser.decide ⟨top.token :: below.map Derivation.token, []⟩
    (top.token.lookahead.map (·.symbol)) = decided at same
  rcases decided with ⟨outcome, stack⟩
  obtain rfl : stack = ⟨top.token :: below.map Derivation.token, []⟩ := same
  cases outcome with
  | error cause => rfl
  | ok action => cases action <;> rfl

theorem stepReduce_cases (index : Nat) (rule : Rule) (top : Token) (goOn : Configuration → Step)
    (state : State) :
    (∃ next, state.Reduces index rule next ∧
      (stepReduce rule top state.configuration goOn).value = goOn next.configuration) ∨
    ∃ cause, (rule.reduce state.configuration.stack).1 = .error cause ∧
      (stepReduce rule top state.configuration goOn).value =
        .failed (.reduce top.span.line top.span.column cause) := by
  rcases state with ⟨stack, input⟩
  unfold stepReduce
  cases outcome : rule.reduce (State.configuration ⟨stack, input⟩).stack with
  | mk result undone =>
      cases result with
      | error cause => exact .inr ⟨cause, rfl, rfl⟩
      | ok done =>
          cases done
          rcases Rule.exists_of_reduce_eq_ok outcome with ⟨children, below, shown, kinds, rfl⟩
          rcases List.map_eq_append_iff.mp shown with ⟨upper, lower, rfl, taken, rfl⟩
          obtain rfl : children = upper.reverse.map Derivation.token := by
            rw [List.map_reverse, taken, List.reverse_reverse]
          rw [Derivation.map_kind_token] at kinds
          have reduces : State.Reduces index rule ⟨upper.reverse.reverse ++ lower, input⟩
              ⟨.built index rule upper.reverse :: lower, input⟩ := .apply kinds lower input
          rw [List.reverse_reverse] at reduces
          refine .inl ⟨_, reduces, ?_⟩
          simp only [State.configuration, List.map_cons, Derivation.token_built]

/-- What one step does, for every state with something on the stack. -/
theorem leads_step (restores : parser.Restores) (nonempty : state.stack ≠ []) :
    Leads parser state (parser.step state.configuration).value := by
  rcases state with ⟨stack, input⟩
  match stack, nonempty with
  | top :: below, _ =>
      rw [value_step restores]
      cases decided : State.decision ⟨top :: below, input⟩ parser with
      | error cause => exact .failed (.undecided decided)
      | ok action =>
          cases action with
          | shift =>
              cases input with
              | nil => exact .failed (.pastEnd decided)
              | cons token rest => exact .next (.shift decided)
          | reduce index rule =>
              dsimp only
              rcases stepReduce_cases index rule top.token .next ⟨top :: below, input⟩ with
                ⟨next, reduces, equal⟩ | ⟨cause, refused, equal⟩ <;> rw [equal]
              · exact .next (.reduce decided reduces)
              · exact .failed (.unreduced decided (.inl rfl) refused)
          | accept index rule =>
              dsimp only
              rcases stepReduce_cases index rule top.token .accepted ⟨top :: below, input⟩ with
                ⟨final, reduces, equal⟩ | ⟨cause, refused, equal⟩ <;> rw [equal]
              · exact .accepted (.accept decided reduces)
              · exact .failed (.unreduced decided (.inr rfl) refused)

/-! ## At most one step -/

theorem State.Reduces.stack_ne_nil {index : Nat} {rule : Rule} {next : State}
    (reduces : state.Reduces index rule next) : state.stack ≠ [] := by
  cases reduces with
  | @apply parts kinds below input =>
      intro empty
      have none : parts = [] := by simpa using (List.append_eq_nil_iff.mp empty).1
      subst none
      exact rule.rhs_ne_nil kinds.symm

theorem State.Reduces.value_stepReduce {index : Nat} {rule : Rule} {next : State}
    (reduces : state.Reduces index rule next) (top : Token) (goOn : Configuration → Step) :
    (stepReduce rule top state.configuration goOn).value = goOn next.configuration := by
  cases reduces with
  | @apply parts kinds below input =>
      have tokens : (parts.map Derivation.token).map Token.kind = rule.rhs := by
        rw [Derivation.map_kind_token, kinds]
      simp only [stepReduce, State.configuration, List.map_append, List.map_reverse,
        Rule.reduce_append tokens, List.map_cons, Derivation.token_built]

theorem Leads.value_step {step : Step} (restores : parser.Restores)
    (leads : Leads parser state step) : (parser.step state.configuration).value = step := by
  cases leads with
  | next moves =>
      cases moves with
      | shift decided =>
          rw [Parser.value_step restores, decided]
          rfl
      | reduce decided reduces =>
          rcases state with ⟨_ | ⟨top, below⟩, input⟩
          · exact absurd rfl reduces.stack_ne_nil
          · rw [Parser.value_step restores, decided]
            exact reduces.value_stepReduce _ _
  | accepted accepts =>
      rcases accepts with ⟨decided, reduces⟩
      rcases state with ⟨_ | ⟨top, below⟩, input⟩
      · exact absurd rfl reduces.stack_ne_nil
      · rw [Parser.value_step restores, decided]
        exact reduces.value_stepReduce _ _
  | failed fails =>
      cases fails with
      | undecided decided => rw [Parser.value_step restores, decided]
      | pastEnd decided =>
          rw [Parser.value_step restores, decided]
          rfl
      | @unreduced top below input action index rule cause decided applies refused =>
          have value : ∀ goOn, (stepReduce rule top.token
              (State.configuration ⟨top :: below, input⟩) goOn).value =
              .failed (.reduce top.token.span.line top.token.span.column cause) := by
            intro goOn
            change (rule.reduce (State.configuration ⟨top :: below, input⟩).stack).1 = _ at refused
            unfold stepReduce
            split <;> rename_i outcome <;> rw [outcome] at refused
            · rw [Except.error.inj refused]
            · cases refused
          rw [Parser.value_step restores, decided]
          rcases applies with rfl | rfl <;> exact value _

theorem State.Reduces.unique {index : Nat} {rule : Rule} {left right : State}
    (toLeft : state.Reduces index rule left) (toRight : state.Reduces index rule right) :
    left = right := by
  rcases state with ⟨stack, rest⟩
  generalize whole : State.mk stack rest = origin at toLeft
  cases toLeft with
  | @apply parts kinds below input =>
      cases whole
      generalize whole : State.mk (parts.reverse ++ below) rest = origin at toRight
      cases toRight with
      | @apply parts' kinds' below' input' =>
          rcases State.mk.inj whole with ⟨split, rfl⟩
          have size : parts.reverse.length = parts'.reverse.length := by
            have lengths := congrArg List.length (kinds.trans kinds'.symm)
            simpa using lengths
          rcases List.append_inj split size with ⟨same, rfl⟩
          rw [List.reverse_inj.mp same]

theorem Moves.unique {left right : State} (toLeft : Moves parser state left)
    (toRight : Moves parser state right) : left = right := by
  cases toLeft with
  | shift decided =>
      cases toRight with
      | shift => rfl
      | reduce other => simp [decided] at other
  | reduce decided reduces =>
      cases toRight with
      | shift other => simp [decided] at other
      | reduce other reduces' =>
          rcases Action.reduce.inj (Except.ok.inj (decided.symm.trans other)) with ⟨rfl, rfl⟩
          exact reduces.unique reduces'

theorem Accepts.unique {left right : State} (toLeft : Accepts parser state left)
    (toRight : Accepts parser state right) : left = right := by
  rcases toLeft with ⟨decided, reduces⟩
  rcases toRight with ⟨other, reduces'⟩
  rcases Action.accept.inj (Except.ok.inj (decided.symm.trans other)) with ⟨rfl, rfl⟩
  exact reduces.unique reduces'

theorem Moves.stack_ne_nil {next : State} (moves : Moves parser state next) :
    next.stack ≠ [] := by
  cases moves with
  | shift => exact List.cons_ne_nil _ _
  | reduce _ reduces =>
      cases reduces
      exact List.cons_ne_nil _ _

def Halted (parser : Parser) (state : State) : Prop :=
  ∀ next, ¬Moves parser state next

theorem Accepts.halted (restores : parser.Restores) {final : State}
    (accepts : Accepts parser state final) : Halted parser state := by
  intro next moves
  have same := (Leads.next moves).value_step restores
  rw [(Leads.accepted accepts).value_step restores] at same
  cases same

theorem Fails.halted (restores : parser.Restores) {error : ParseError}
    (fails : Fails parser state error) : Halted parser state := by
  intro next moves
  have same := (Leads.next moves).value_step restores
  rw [(Leads.failed fails).value_step restores] at same
  cases same

/-! ## Runs -/

abbrev Reaches (parser : Parser) : State → State → Prop :=
  Relation.ReflTransGen (Moves parser)

theorem halted_unique {left right : State} (toLeft : Reaches parser state left)
    (toRight : Reaches parser state right) (leftHalted : Halted parser left)
    (rightHalted : Halted parser right) : left = right := by
  have deterministic : Relator.RightUnique (Moves parser) := fun _ _ _ => Moves.unique
  rcases Relation.ReflTransGen.total_of_right_unique deterministic toLeft toRight with path | path
  · rcases path.cases_head with equal | ⟨next, moves, _⟩
    · exact equal
    · exact absurd moves (leftHalted next)
  · rcases path.cases_head with equal | ⟨next, moves, _⟩
    · exact equal.symm
    · exact absurd moves (rightHalted next)

/-- How a run from a state can end. -/
inductive Ends (parser : Parser) (state : State) : Except ParseError Configuration → Prop
  | accepted {last final : State} (reaches : Reaches parser state last)
      (accepts : Accepts parser last final) : Ends parser state (.ok final.configuration)
  | failed {last : State} {error : ParseError} (reaches : Reaches parser state last)
      (fails : Fails parser last error) : Ends parser state (.error error)
  | exhausted : Ends parser state (.error .endless)

theorem value_run (fewer : Nat) (configuration : Configuration) (earlier : List Event) :
    (parser.run (fewer + 1) configuration earlier).value =
      match (parser.step configuration).value with
      | .next next => (parser.run fewer next
          ((parser.step configuration).events.reverse ++ earlier)).value
      | .accepted final => .ok final
      | .failed error => .error error := by
  rw [run]
  dsimp only
  split <;> simp_all

theorem ends_run (restores : parser.Restores) (nonempty : state.stack ≠ []) (bound : Nat)
    (earlier : List Event) :
    Ends parser state (parser.run bound state.configuration earlier).value := by
  induction bound generalizing state earlier with
  | zero => exact .exhausted
  | succ fewer induction =>
      have leads := leads_step restores nonempty
      rw [value_run]
      generalize (parser.step state.configuration).value = outcome at leads
      cases leads with
      | accepted accepts => exact .accepted .refl accepts
      | failed fails => exact .failed .refl fails
      | next moves =>
          have later := induction moves.stack_ne_nil
            ((parser.step state.configuration).events.reverse ++ earlier)
          dsimp only
          generalize (run _ _ _ _).value = answer at later ⊢
          cases later with
          | accepted reaches accepts => exact .accepted (reaches.head moves) accepts
          | failed reaches fails => exact .failed (reaches.head moves) fails
          | exhausted => exact .exhausted

theorem Fails.ne_endless {error : ParseError} (fails : Fails parser state error) :
    error ≠ .endless := by
  cases fails <;> exact nofun

theorem run_ne_endless (restores : parser.Restores) {measure : State → Nat}
    (falls : ∀ state next, Moves parser state next → measure next < measure state)
    (nonempty : state.stack ≠ []) {bound : Nat} (enough : measure state < bound)
    (earlier : List Event) :
    (parser.run bound state.configuration earlier).value ≠ .error .endless := by
  induction bound generalizing state earlier with
  | zero => omega
  | succ fewer induction =>
      have leads := leads_step restores nonempty
      rw [value_run]
      generalize (parser.step state.configuration).value = outcome at leads
      cases leads with
      | accepted accepts => exact nofun
      | failed fails =>
          intro equal
          exact fails.ne_endless (Except.error.inj equal)
      | next moves =>
          have lower := falls _ _ moves
          exact induction moves.stack_ne_nil (by omega) _

theorem run_eq_of_fails (restores : parser.Restores) (nonempty : state.stack ≠ []) {bound : Nat}
    {earlier : List Event}
    (finite : (parser.run bound state.configuration earlier).value ≠ .error .endless)
    {last : State} {error : ParseError} (reaches : Reaches parser state last)
    (fails : Fails parser last error) :
    (parser.run bound state.configuration earlier).value = .error error := by
  have ends := ends_run restores nonempty bound earlier
  generalize (parser.run bound state.configuration earlier).value = answer at ends finite
  cases ends with
  | accepted reaches' accepts =>
      rcases halted_unique reaches reaches' (fails.halted restores)
        (accepts.halted restores) with rfl
      have same := (Leads.accepted accepts).value_step restores
      rw [(Leads.failed fails).value_step restores] at same
      cases same
  | failed reaches' fails' =>
      rcases halted_unique reaches reaches' (fails.halted restores)
        (fails'.halted restores) with rfl
      have same := (Leads.failed fails').value_step restores
      rw [(Leads.failed fails).value_step restores] at same
      rw [Step.failed.inj same]
  | exhausted => exact absurd rfl finite

theorem run_eq_of_accepts (restores : parser.Restores) (nonempty : state.stack ≠ [])
    {bound : Nat} {earlier : List Event}
    (finite : (parser.run bound state.configuration earlier).value ≠ .error .endless)
    {last final : State} (reaches : Reaches parser state last)
    (accepts : Accepts parser last final) :
    (parser.run bound state.configuration earlier).value = .ok final.configuration := by
  have ends := ends_run restores nonempty bound earlier
  generalize (parser.run bound state.configuration earlier).value = answer at ends finite
  cases ends with
  | accepted reaches' accepts' =>
      rcases halted_unique reaches reaches' (accepts.halted restores)
        (accepts'.halted restores) with rfl
      rw [accepts.unique accepts']
  | failed reaches' fails =>
      rcases halted_unique reaches reaches' (accepts.halted restores)
        (fails.halted restores) with rfl
      have same := (Leads.accepted accepts).value_step restores
      rw [(Leads.failed fails).value_step restores] at same
      cases same
  | exhausted => exact absurd rfl finite

/-! ## Whole parses -/

def State.initial (first : Token) (rest : List Token) : State :=
  ⟨[.read first], rest⟩

theorem value_parse (parser : Parser) (trailing : TrailingPolicy) (first : Token)
    (rest : List Token) :
    (parser.parse trailing (first :: rest)).value =
      match (parser.run (stepBound (first :: rest))
        (State.initial first rest).configuration []).value with
      | .ok configuration => (parser.finish trailing configuration).value
      | .error error => .error error := by
  have same : (ExceptT.mk (parser.run (stepBound (first :: rest))
      ⟨UndoStack.empty.push first, rest⟩ [])).value =
      (parser.run (stepBound (first :: rest)) (State.initial first rest).configuration []).value :=
    rfl
  rw [parse, Attempt.value_bind, same]
  cases (parser.run (stepBound (first :: rest))
    (State.initial first rest).configuration []).value <;> rfl

theorem value_finish (parser : Parser) (trailing : TrailingPolicy)
    (configuration : Configuration) :
    (parser.finish trailing configuration).value =
      if configuration.input ≠ [] ∧ trailing = .refuse then
        .error (.trailingInput configuration.input.length)
      else match configuration.stack.elements with
        | [] => .error .notAccepted
        | [root] =>
          if root.kind = parser.start then .ok root
          else .error (.wrongRoot parser.start root.kind)
        | _ :: below => .error (.leftoverStack below.length) := by
  rcases configuration with ⟨⟨elements, popped⟩, input⟩
  have checked : ∀ root : Token, (if root.kind = parser.start then pure root
      else throw (.wrongRoot parser.start root.kind) : Attempt ParseError Token).value =
      if root.kind = parser.start then .ok root
      else .error (.wrongRoot parser.start root.kind) := by
    intro root
    split <;> rfl
  cases input with
  | nil =>
      rcases elements with _ | ⟨root, _ | ⟨second, more⟩⟩
      · simp [finish]
      · simp [finish, checked]
      · simp [finish]
  | cons token later =>
      cases trailing with
      | refuse => simp [finish, Attempt.value_bind]
      | warn =>
          rcases elements with _ | ⟨root, _ | ⟨second, more⟩⟩
          · simp [finish]
          · simp [finish, checked]
          · simp [finish]

theorem finish_eq_ok_iff {trailing : TrailingPolicy} {configuration : Configuration}
    {tree : Token} :
    (parser.finish trailing configuration).value = .ok tree ↔
      configuration.stack.elements = [tree] ∧ tree.kind = parser.start ∧
        (trailing = .refuse → configuration.input = []) := by
  rw [value_finish]
  split
  · rename_i left
    simp [left]
  · rename_i allowed
    have allowed : trailing = .refuse → configuration.input = [] := by
      intro refuse
      by_cases empty : configuration.input = []
      · exact empty
      · exact absurd ⟨empty, refuse⟩ allowed
    rcases configuration.stack.elements with _ | ⟨root, _ | ⟨second, more⟩⟩
    · simp
    · dsimp only
      by_cases start : root.kind = parser.start
      · rw [if_pos start]
        constructor
        · intro equal
          rcases Except.ok.inj equal with rfl
          exact ⟨rfl, start, allowed⟩
        · intro left
          rw [(List.cons.inj left.1).1]
      · rw [if_neg start]
        simp only [reduceCtorEq, false_iff, not_and]
        intro equal kind
        exact absurd ((List.cons.inj equal).1 ▸ kind) start
    · simp

theorem State.initial_stack_ne_nil (first : Token) (rest : List Token) :
    (State.initial first rest).stack ≠ [] :=
  List.cons_ne_nil _ _

theorem exists_of_parse_eq_ok (restores : parser.Restores) {trailing : TrailingPolicy}
    {tokens : List Token} {tree : Token}
    (parsed : (parser.parse trailing tokens).value = .ok tree) :
    ∃ first rest last root unread, tokens = first :: rest ∧
      Reaches parser (State.initial first rest) last ∧ Accepts parser last ⟨[root], unread⟩ ∧
      root.token = tree ∧ tree.kind = parser.start ∧ (trailing = .refuse → unread = []) := by
  match tokens with
  | [] => cases parsed
  | first :: rest =>
      rw [value_parse] at parsed
      have ends := ends_run restores (State.initial_stack_ne_nil first rest)
        (stepBound (first :: rest)) []
      generalize (parser.run _ _ _).value = answer at ends parsed
      cases ends with
      | failed reaches fails => cases parsed
      | exhausted => cases parsed
      | @accepted last final reaches accepts =>
          rcases finish_eq_ok_iff.mp parsed with ⟨single, start, allowed⟩
          rcases List.map_eq_singleton_iff.mp single with ⟨root, only, rfl⟩
          match final, only with
          | ⟨_, unread⟩, rfl =>
              exact ⟨first, rest, last, root, unread, rfl, reaches, accepts, rfl, start, allowed⟩

theorem parse_eq_ok_iff (restores : parser.Restores)
    (finite : ∀ first rest, (parser.run (stepBound (first :: rest))
      (State.initial first rest).configuration []).value ≠ .error .endless)
    {trailing : TrailingPolicy} {tokens : List Token} {tree : Token} :
    (parser.parse trailing tokens).value = .ok tree ↔
      ∃ first rest last root unread, tokens = first :: rest ∧
        Reaches parser (State.initial first rest) last ∧ Accepts parser last ⟨[root], unread⟩ ∧
        root.token = tree ∧ tree.kind = parser.start ∧ (trailing = .refuse → unread = []) := by
  constructor
  · exact exists_of_parse_eq_ok restores
  · intro accepted
    rcases accepted with
      ⟨first, rest, last, root, unread, rfl, reaches, accepts, rfl, start, allowed⟩
    rw [value_parse, run_eq_of_accepts restores (State.initial_stack_ne_nil first rest)
      (finite first rest) reaches accepts]
    exact finish_eq_ok_iff.mpr ⟨rfl, start, allowed⟩

section Halting

variable {first : Token} {rest : List Token}

theorem parse_eq_of_accepts (restores : parser.Restores)
    (finite : (parser.run (stepBound (first :: rest))
      (State.initial first rest).configuration []).value ≠ .error .endless)
    {last : State} {root : Derivation} (reaches : Reaches parser (State.initial first rest) last)
    (accepts : Accepts parser last ⟨[root], []⟩) (start : root.kind = parser.start)
    (trailing : TrailingPolicy) :
    (parser.parse trailing (first :: rest)).value = .ok root.token := by
  rw [value_parse, run_eq_of_accepts restores (State.initial_stack_ne_nil first rest) finite
    reaches accepts]
  exact finish_eq_ok_iff.mpr ⟨rfl, root.kind_token.trans start, fun _ => rfl⟩

theorem parse_eq_of_fails (restores : parser.Restores)
    (finite : (parser.run (stepBound (first :: rest))
      (State.initial first rest).configuration []).value ≠ .error .endless)
    {last : State} {error : ParseError}
    (reaches : Reaches parser (State.initial first rest) last) (fails : Fails parser last error)
    (trailing : TrailingPolicy) :
    (parser.parse trailing (first :: rest)).value = .error error := by
  rw [value_parse, run_eq_of_fails restores (State.initial_stack_ne_nil first rest) finite
    reaches fails]

end Halting

end Stencil.Parser
