import Stencil.Proofs.Attempts
import Stencil.Proofs.Text.Utf8
import Stencil.Template.Write

/-! # What is written to a sink

A sink may take its bytes in portions and be interrupted. As long as it does not give up, nothing is
lost, and nothing comes twice: all that was offered arrives, in order.
-/

namespace Stencil

variable {σ : Type}

namespace Sink

/-- A sink that takes everything it is offered, at once or little by little. `content` tells the
bytes that have arrived in a state. -/
structure TakesAll (sink : Sink σ) (content : σ → List UInt8) : Prop where
  advances : ∀ state bytes, bytes ≠ [] → (sink.write state bytes).1 ≠ .took 0
  not_failed : ∀ state bytes reason, (sink.write state bytes).1 ≠ .failed reason
  content_took : ∀ state bytes count, (sink.write state bytes).1 = .took count →
    content (sink.write state bytes).2 = content state ++ bytes.take count
  content_interrupted : ∀ state bytes, (sink.write state bytes).1 = .interrupted →
    content (sink.write state bytes).2 = content state
  flushed : ∀ state, (sink.flush state).1 = .ok ()
  content_flush : ∀ state, content (sink.flush state).2 = content state

theorem everything_takesAll : everything.TakesAll fun taken => taken.reverse.flatten where
  advances _ bytes nonempty answer := by
    injection answer with zero
    exact nonempty (List.length_eq_zero_iff.mp zero)
  not_failed _ _ _ := nofun
  content_took state bytes count answer := by
    injection answer with length
    simp [everything, ← length]
  content_interrupted _ _ := nofun
  flushed _ := rfl
  content_flush _ := rfl

namespace TakesAll

variable {sink : Sink σ} {content : σ → List UInt8}

theorem writeAll (takesAll : sink.TakesAll content) (state : σ) (bytes : List UInt8)
    (written : Nat) :
    ∃ after, sink.writeAll state bytes written = (.ok (written + bytes.length), after) ∧
      content after = content state ++ bytes := by
  -- Each offer takes some bytes away or waits for another, as the recursion does.
  fun_induction sink.writeAll state bytes written with
  | case1 state bytes written nothing =>
      rw [List.isEmpty_iff.mp nothing]
      exact ⟨state, rfl, (List.append_nil _).symm⟩
  | case2 state bytes written some next answer =>
      rw [List.isEmpty_iff] at some
      exact absurd (congrArg Prod.fst answer) (takesAll.advances state bytes some)
  | case3 state bytes written some less next answer induction =>
      have arrived := takesAll.content_took state bytes _ (congrArg Prod.fst answer)
      have bound := sink.took_le state bytes _ (congrArg Prod.fst answer)
      rw [answer] at arrived
      rcases induction with ⟨after, writes, content⟩
      refine ⟨after, ?_, ?_⟩
      · have total : written + (less + 1) + (bytes.length - (less + 1)) =
            written + bytes.length := by omega
        rw [writes, List.length_drop, total]
      · rw [content, arrived, List.append_assoc, List.take_append_drop]
  | case4 state bytes written some next answer induction =>
      have waited := takesAll.content_interrupted state bytes (congrArg Prod.fst answer)
      rw [answer] at waited
      rwa [waited] at induction
  | case5 state bytes written some reason next answer =>
      exact absurd (congrArg Prod.fst answer) (takesAll.not_failed state bytes reason)

theorem writePortions (takesAll : sink.TakesAll content) (state : σ) (written : Nat)
    (portions : List String) :
    ∃ total after, sink.writePortions state written portions = (.ok total, after) ∧
      content after = content state ++ (String.join portions).toUTF8.toList := by
  induction portions generalizing state written with
  | nil => exact ⟨written, state, rfl, by simp [Text.toList_eq_toList_data]⟩
  | cons portion later induction =>
      rcases takesAll.writeAll state portion.toUTF8.toList written with ⟨next, writes, arrived⟩
      rcases induction next (written + portion.toUTF8.toList.length) with
        ⟨total, after, others, content⟩
      refine ⟨total, after, ?_, ?_⟩
      · rw [Sink.writePortions, writes]
        exact others
      · rw [content, arrived, String.join_cons, Text.toList_toUTF8_append, List.append_assoc]

end TakesAll

end Sink

theorem Template.write_eq_ok {template : Template} (resolved : template.checkResolved = .ok ())
    {sink : Sink σ} {content : σ → List UInt8} (takesAll : sink.TakesAll content) (state : σ) :
    ∃ after, template.write sink state = (.ok (), after) ∧
      content after = content state ++ (String.join template.portions).toUTF8.toList := by
  rcases takesAll.writePortions state 0 template.portions with ⟨total, next, writes, arrived⟩
  refine ⟨(sink.flush next).2, ?_, ?_⟩
  · have flushes : sink.flush next = (.ok (), (sink.flush next).2) :=
      Prod.ext (takesAll.flushed next) rfl
    rw [Template.write, resolved, writes]
    dsimp only
    rw [flushes]
  · rw [takesAll.content_flush, arrived]

theorem Template.checkResolved_of_keep {template : Template}
    (policy : template.options.unresolved = .keep) : template.checkResolved = .ok () := by
  rw [checkResolved, policy]

theorem Template.checkResolved_of_refuse {template : Template} {name : String}
    (policy : template.options.unresolved = .refuse)
    (first : template.unresolved.head? = some name) :
    template.checkResolved = .error (.unresolved name) := by
  rcases List.head?_eq_some_iff.mp first with ⟨later, names⟩
  rw [checkResolved, policy, names]

theorem Template.checkResolved_of_unresolved_eq_nil {template : Template}
    (resolved : template.unresolved = []) : template.checkResolved = .ok () := by
  rw [checkResolved, resolved]
  cases template.options.unresolved <;> rfl

namespace Template

variable {sink : Sink σ} {content : σ → List UInt8}

/-- What a template is as a text, unless it may not be written. -/
def text (template : Template) : Except WriteError String := do
  template.checkResolved
  pure (String.join template.portions)

/-- Writing to a sink that takes everything brings out the text, or does not touch the sink. -/
theorem write_of_takesAll (takesAll : sink.TakesAll content) (state : σ) (template : Template) :
    match template.text with
    | .ok text => ∃ after, template.write sink state = (.ok (), after) ∧
        content after = content state ++ text.toUTF8.toList
    | .error error => template.write sink state = (.error error, state) := by
  cases checked : template.checkResolved with
  | error error =>
      rw [text, write, checked]
      rfl
  | ok =>
      rw [text, checked]
      exact write_eq_ok checked takesAll state

/-! ## Results of applying data -/

theorem value_apply_eq (template : Template) (lookup : Lookup) :
    (template.apply lookup).value =
      match template.gathering lookup with
      | (_, .error error) => (.error error, template)
      | (progress, .ok ()) =>
        (.ok progress.found.length,
          { template with
            pieces := (replaceAll template.pieces.toArray progress.found.reverse).toList }) := by
  rw [apply, Kept.apply]
  simp only [Work.value_bind, Work.value_get, Work.value_lift, Work.value_ofExcept,
    Work.value_modify, Work.value_pure]
  rcases template.gathering lookup with ⟨progress, _ | _⟩ <;> rfl

theorem value_run_resolved (template : Template) (lookup : Lookup) :
    ((Kept.resolved lookup).run.run template).value =
      match (template.apply lookup).value with
      | (.error error, _) => (.error error, template)
      | (.ok _, copy) => (.ok copy, template) := by
  rw [Kept.resolved, apply]
  simp only [Work.value_bind, Work.value_get, Work.value_lift, Work.value_ofExcept]
  rcases ((Kept.apply lookup).run.run template).value with ⟨_ | _, copy⟩ <;> rfl

theorem value_run_render (template : Template) (lookup : Lookup) :
    ((Kept.render lookup).run.run template).value =
      match (template.apply lookup).value with
      | (.error error, _) => (.error (.apply error), template)
      | (.ok _, copy) => (copy.text.mapError .write, template) := by
  rw [Kept.render]
  simp only [Work.value_bind, Work.value_adapt, value_run_resolved, Work.value_ofExcept]
  rcases (template.apply lookup).value with ⟨_ | _, copy⟩
  · rfl
  · have written := write_of_takesAll Sink.everything_takesAll [] copy
    dsimp only [Attempt.mapError_ok]
    cases spelled : copy.text with
    | error error =>
        rw [spelled] at written
        dsimp only at written
        rw [written]
        rfl
    | ok text =>
        rw [spelled] at written
        rcases written with ⟨taken, writes, arrived⟩
        have shown : Text.ofUtf8 ⟨taken.reverse.flatten.toArray⟩ = text := by
          have bytes : (⟨taken.reverse.flatten.toArray⟩ : ByteArray) = text.toUTF8 := by
            rw [arrived]
            simp [Text.toList_eq_toList_data]
          rw [bytes, Text.ofUtf8_toUTF8]
        rw [writes]
        exact congrArg (fun text => (Except.ok text, template)) shown

theorem value_resolved (template : Template) (lookup : Lookup) :
    (template.resolved lookup).value =
      match (template.apply lookup).value with
      | (.error error, _) => .error error
      | (.ok _, copy) => .ok copy := by
  rw [resolved, Work.value_result, value_run_resolved]
  rcases (template.apply lookup).value with ⟨_ | _, copy⟩ <;> rfl

theorem value_render_eq (template : Template) (lookup : Lookup) :
    (template.render lookup).value =
      match (template.apply lookup).value with
      | (.error error, _) => .error (.apply error)
      | (.ok _, copy) => copy.text.mapError .write := by
  rw [render, Work.value_result, value_run_render]
  rcases (template.apply lookup).value with ⟨_ | _, copy⟩ <;> rfl

theorem value_execute (template : Template) (sink : Sink σ) (state : σ) (lookup : Lookup) :
    (template.execute sink state lookup).value =
      match (template.apply lookup).value with
      | (.error error, kept) => ⟨kept, state, .error (.apply error)⟩
      | (.ok _, kept) =>
        ⟨kept, (kept.write sink state).2, (kept.write sink state).1.mapError .write⟩ := by
  change Reported.value ((Kept.execute sink state lookup).run template >>= _) = _
  rw [Kept.execute, StateT.run_bind, apply]
  simp only [Reported.value_bind]
  rcases ((Kept.apply lookup).run.run template).value with ⟨_ | _, copy⟩ <;> rfl

/-- Executing a template with a sink that takes everything comes to rendering it. The whole text
arrives, or nothing does. -/
theorem execute_of_takesAll (takesAll : sink.TakesAll content) (state : σ) (template : Template)
    (lookup : Lookup) :
    match (template.render lookup).value with
    | .ok text => (template.execute sink state lookup).value.outcome = .ok () ∧
        content (template.execute sink state lookup).value.state =
          content state ++ text.toUTF8.toList
    | .error error => (template.execute sink state lookup).value.outcome = .error error ∧
        (template.execute sink state lookup).value.state = state := by
  rw [value_execute, value_render_eq]
  rcases (template.apply lookup).value with ⟨_ | _, kept⟩
  · exact ⟨rfl, rfl⟩
  · have written := write_of_takesAll takesAll state kept
    dsimp only
    cases spelled : kept.text with
    | error error =>
        rw [spelled] at written
        dsimp only at written
        rw [written]
        exact ⟨rfl, rfl⟩
    | ok text =>
        rw [spelled] at written
        rcases written with ⟨after, writes, arrived⟩
        rw [writes]
        exact ⟨rfl, arrived⟩

end Template

end Stencil
