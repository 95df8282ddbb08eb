import Stencil.Proofs.Template.Refusals
import Stencil.Template.Write

/-! # What is reported without being asked for

Reports are made for those who ask for them. The only one that shows otherwise is about tokens that
are left over, and no source leaves any.
-/

namespace Stencil

/-- Nothing shows of what is reported unless someone asks for it. -/
def Quiet {α : Type} (reported : Reported α) : Prop :=
  ∀ event ∈ reported.events, event.level.shownAt .warn = false

namespace Quiet

variable {ε ε' α β : Type}

theorem pure (value : α) : Quiet (Pure.pure value : Reported α) :=
  List.forall_mem_nil _

theorem report {event : Event} (hidden : event.level.shownAt .warn = false) :
    Quiet (Stencil.report event) :=
  List.forall_mem_singleton.mpr hidden

theorem bind {first : Reported α} {next : α → Reported β} (quiet : Quiet first)
    (others : Quiet (next first.value)) : Quiet (first >>= next) :=
  List.forall_mem_append.mpr ⟨quiet, others⟩

theorem attempt_bind {first : Attempt ε α} {next : α → Attempt ε β} (quiet : Quiet first)
    (others : ∀ value, first.value = .ok value → Quiet (next value)) :
    Quiet (first >>= next : Attempt ε β) := by
  have rest : Quiet (ExceptT.bindCont next first.value) := by
    cases result : first.value with
    | ok value => exact others value result
    | error error => exact List.forall_mem_nil _
  exact List.forall_mem_append.mpr ⟨quiet, rest⟩

theorem work_bind {σ : Type} {first : Work σ ε α} {next : α → Work σ ε β} {state : σ}
    (quiet : Quiet (first.run.run state))
    (others : ∀ value after, (first.run.run state).value = (.ok value, after) →
      Quiet ((next value).run.run after)) :
    Quiet ((first >>= next).run.run state) := by
  have rest : Quiet (ExceptT.bindCont next (first.run.run state).value.1
      (first.run.run state).value.2) := by
    rcases result : (first.run.run state).value with ⟨error | value, after⟩
    · exact List.forall_mem_nil _
    · exact others value after result
  exact List.forall_mem_append.mpr ⟨quiet, rest⟩

theorem ofExcept (outcome : Except ε α) :
    Quiet (MonadExcept.ofExcept outcome : Attempt ε α) := by
  cases outcome <;> exact List.forall_mem_nil _

theorem work_ofExcept {σ : Type} (outcome : Except ε α) (state : σ) :
    Quiet ((MonadExcept.ofExcept outcome : Work σ ε α).run.run state) := by
  cases outcome <;> exact List.forall_mem_nil _

theorem work_ofAttempt {σ : Type} {attempt : Attempt ε α} (quiet : Quiet attempt) (state : σ) :
    Quiet ((Work.ofAttempt attempt).run.run state) :=
  List.forall_mem_append.mpr ⟨quiet, List.forall_mem_nil _⟩

theorem lift {reported : Reported α} (quiet : Quiet reported) :
    Quiet (liftM reported : Attempt ε α) :=
  List.forall_mem_append.mpr ⟨quiet, List.forall_mem_nil _⟩

theorem work_lift {σ : Type} {reported : Reported α} (quiet : Quiet reported) (state : σ) :
    Quiet ((liftM reported : Work σ ε α).run.run state) :=
  List.forall_mem_append.mpr
    ⟨List.forall_mem_append.mpr ⟨quiet, List.forall_mem_nil _⟩, List.forall_mem_nil _⟩

theorem adapt {attempt : Attempt ε α} (quiet : Quiet attempt) (wrap : ε → ε') :
    Quiet (attempt.adapt wrap : Attempt ε' α) :=
  List.forall_mem_append.mpr ⟨quiet, List.forall_mem_nil _⟩

end Quiet

/-! ## Parsers -/

namespace Parser

theorem quiet_ofHalt (reason : Halt) (stack : List Token) :
    ∀ event ∈ Event.ofHalt reason stack, event.level.shownAt .warn = false := by
  simp [Event.ofHalt, Event.level, Level.shownAt, Level.rank]

theorem quiet_stepReduce (rule : Rule) (top : Token) (configuration : Configuration)
    (goOn : Configuration → Step) : Quiet (stepReduce rule top configuration goOn) := by
  unfold stepReduce
  split
  · exact quiet_ofHalt _ _
  · exact List.forall_mem_singleton.mpr rfl

theorem quiet_step (parser : Parser) (configuration : Configuration) :
    Quiet (parser.step configuration) := by
  unfold step
  cases configuration.stack.peek? with
  | none => exact Quiet.pure _
  | some top =>
      dsimp only
      split
      · exact quiet_ofHalt _ _
      · apply Quiet.bind (Quiet.report rfl)
        rename_i action _ _
        cases action with
        | shift =>
            dsimp only
            unfold stepShift
            split
            · exact quiet_ofHalt _ _
            · exact Quiet.pure _
        | reduce => exact quiet_stepReduce _ _ _ _
        | accept => exact quiet_stepReduce _ _ _ _

theorem quiet_run (parser : Parser) (bound : Nat) (configuration : Configuration)
    {earlier : List Event} (quiet : ∀ event ∈ earlier, event.level.shownAt .warn = false) :
    Quiet (parser.run bound configuration earlier) := by
  have reversed {events : List Event}
      (quiet : ∀ event ∈ events, event.level.shownAt .warn = false) :
      ∀ event ∈ events.reverse, event.level.shownAt .warn = false := by
    simpa using quiet
  induction bound generalizing configuration earlier with
  | zero => exact reversed quiet
  | succ fewer induction =>
      have first := quiet_step parser configuration
      have before := List.forall_mem_append.mpr ⟨reversed first, quiet⟩
      unfold run
      dsimp only
      cases (parser.step configuration).value with
      | next configuration => exact induction configuration before
      | accepted configuration => exact reversed before
      | failed error => exact reversed before

theorem quiet_finish (parser : Parser) (trailing : TrailingPolicy) {configuration : Configuration}
    (done : configuration.input = []) : Quiet (parser.finish trailing configuration) := by
  rcases configuration with ⟨⟨elements, popped⟩, input⟩
  cases done
  match elements with
  | [] => exact List.forall_mem_nil _
  | [root] =>
      change Quiet (if root.kind = parser.start then _ else _ : Attempt ParseError Token)
      split <;> exact List.forall_mem_nil _
  | _ :: _ :: _ => exact quiet_ofHalt _ _

theorem quiet_parse (parser : Parser) (trailing : TrailingPolicy) (tokens : List Token)
    (complete : ∀ count, (parser.parse .refuse tokens).value ≠ .error (.trailingInput count)) :
    Quiet (parser.parse trailing tokens) := by
  match tokens with
  | [] => exact List.forall_mem_nil _
  | first :: rest =>
      apply Quiet.attempt_bind (quiet_run _ _ _ (List.forall_mem_nil _))
      intro configuration ran
      apply quiet_finish
      by_contra left
      apply complete configuration.input.length
      have ran : (parser.run (stepBound (first :: rest))
          (State.initial first rest).configuration []).value = .ok configuration := ran
      rw [value_parse, ran]
      dsimp only
      rw [value_finish, if_pos ⟨left, rfl⟩]

end Parser

/-! ## Templates -/

namespace Template

open Stencil.Source

theorem Refusal.of_value_ofText {events : List Event} {options : Options} {source : String}
    {error : TemplateError} (failed : (ofText ⟨table, events⟩ options source).value = .error error) :
    Refusal source error := by
  rcases exists_refusal_or_template events options source with ⟨other, refusal⟩ | ⟨template, read⟩
  · rcases Except.error.inj (refusal.value_ofText.symm.trans failed) with rfl
    exact refusal
  · cases read.symm.trans failed

/-- No source leaves tokens behind a template, so nothing is refused for them. -/
theorem parse_ne_trailingInput {source : String} {tokens : List Token}
    (cut : (tokenizeText source).value = .ok tokens) (count : Nat) :
    (table.parse .refuse tokens).value ≠ .error (.trailingInput count) := by
  intro failed
  have refused : (ofText ⟨table, []⟩ { trailing := .refuse } source).value =
      .error (.parse (.trailingInput count)) :=
    value_ofText_of_parse_error cut failed
  cases Refusal.of_value_ofText refused

theorem quiet_tokenize (characters : List Char) : Quiet (tokenize characters) := by
  have read (tokens : List Token) :
      ∀ event ∈ tokens.map Event.tokenRead, event.level.shownAt .warn = false := by
    simp [Event.level, Level.shownAt, Level.rank]
  unfold tokenize
  rcases cut .text .origin characters [] with ⟨tokens, error | place⟩
  · exact read tokens
  · exact List.forall_mem_append.mpr ⟨read tokens, List.forall_mem_singleton.mpr rfl⟩

theorem quiet_tokenizeBytes (bytes : ByteArray) : Quiet (tokenizeBytes bytes) := by
  unfold tokenizeBytes
  split
  · exact quiet_tokenize _
  · exact List.forall_mem_nil _

theorem quiet_parse {bytes : ByteArray} {tokens : List Token}
    (cut : (tokenizeBytes bytes).value = .ok tokens) (trailing : TrailingPolicy) :
    Quiet (table.parse trailing tokens) := by
  apply Parser.quiet_parse
  unfold tokenizeBytes at cut
  split at cut
  · rename_i characters decoded
    have cut : (tokenizeText (.ofList characters)).value = .ok tokens := by
      rwa [tokenizeText, String.toList_ofList]
    exact parse_ne_trailingInput cut
  · cases cut

theorem quiet_freshTable : Quiet freshTable :=
  (Quiet.report rfl).bind ((Quiet.report rfl).bind (.pure _))

theorem quiet_ofTree (tree : Token) : Quiet (Piece.ofTree tree) := by
  unfold Piece.ofTree
  dsimp only
  split
  · exact List.forall_mem_singleton.mpr rfl
  · exact List.forall_mem_nil _

theorem quiet_ofBytes (options : Options) (bytes : ByteArray) :
    Quiet (ofBytes freshTable options bytes) := by
  apply Quiet.attempt_bind ((quiet_tokenizeBytes bytes).adapt _)
  intro tokens cut
  have cut := Attempt.adapt_eq_ok_iff.mp cut
  apply Quiet.attempt_bind (Quiet.lift (Quiet.report rfl))
  intro _ _
  apply Quiet.attempt_bind (Quiet.lift quiet_freshTable)
  intro made same
  obtain rfl : table = made := Except.ok.inj same
  apply Quiet.attempt_bind ((quiet_parse cut _).adapt _)
  intro tree _
  apply Quiet.attempt_bind (Quiet.lift (Quiet.report rfl))
  intro _ _
  apply Quiet.attempt_bind ((quiet_ofTree tree).adapt _)
  intro pieces _
  exact List.forall_mem_nil _

theorem quiet_apply (template : Template) (lookup : Lookup) : Quiet (template.apply lookup) := by
  have missing (names : List String) : Quiet (reportAll (names.map Event.valueMissing)) := by
    simp [Quiet, reportAll, Event.level, Level.shownAt, Level.rank]
  unfold apply Kept.apply
  refine Quiet.work_bind (List.forall_mem_nil _) ?_
  intro _ _ _
  refine Quiet.work_bind (Quiet.work_lift (missing _) _) ?_
  intro _ _ _
  refine Quiet.work_bind (Quiet.work_ofExcept _ _) ?_
  intro _ _ _
  exact List.forall_mem_singleton.mpr rfl

theorem quiet_execute {σ : Type} (template : Template) (sink : Sink σ) (state : σ)
    (lookup : Lookup) : Quiet (template.execute sink state lookup) := by
  unfold execute Kept.execute
  refine Quiet.bind ?_ (Quiet.pure _)
  rw [StateT.run_bind]
  refine Quiet.bind (quiet_apply template lookup) ?_
  rcases ((Kept.apply lookup).run.run template).value with ⟨error | count, kept⟩
  · exact Quiet.pure _
  · exact List.forall_mem_nil _

end Template

end Stencil
