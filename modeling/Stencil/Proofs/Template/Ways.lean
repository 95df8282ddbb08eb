import Stencil.Proofs.Template.Applying

/-! # Ways to render

A template that is kept can be rendered in three ways: it is executed, which changes it, or a copy is
made of it and written, or it is rendered to a text. The ways agree in what comes out, and in how they
fail. Only executing leaves another template behind.
-/

namespace Stencil.Template

variable {σ : Type}

/-! ## What the ways have in common -/

/-- What executing a template, rendering it and applying data to a copy have in common. -/
structure Agreement (content : σ → List UInt8) (state : σ) (template : Template) (lookup : Lookup)
    (execution : Execution σ) (rendered : Except TemplateError String)
    (copied : Except ApplyError Template) : Prop where
  outcome : execution.outcome = rendered.map fun _ => ()
  arrived : ∀ text, rendered = .ok text →
    content execution.state = content state ++ text.toUTF8.toList
  /-- A sink is not even asked if nothing can be rendered. -/
  untouched : ∀ error, rendered = .error error → execution.state = state
  /-- It does not matter whether the changed template can be written. -/
  changed : (∀ name ∈ template.unresolved, ∃ answer, lookup name = .ok answer) →
    copied = .ok execution.template
  unchanged : ∀ name ∈ template.unresolved, ∀ error, lookup name = .error error →
    execution.template = template ∧
      ∃ cause, copied = .error cause ∧ execution.outcome = .error (.apply cause)

theorem exists_value_apply_eq_error {template : Template} {lookup : Lookup} {name : String}
    (member : name ∈ template.unresolved) {error : ApplyError}
    (failed : lookup name = .error error) :
    ∃ cause, (template.apply lookup).value = (.error cause, template) := by
  cases gathered : (template.gathering lookup).2 with
  | error cause => exact ⟨cause, value_apply_of_gathering_eq_error gathered⟩
  | ok =>
      have answered := answers_of_lookUp_eq_ok gathered name member
      rw [failed] at answered
      cases answered

/-- The ways to render agree: executing with a sink that takes everything, rendering to a text, and
applying data to a copy. Rendering and copying leave the template that is kept as it is. -/
theorem ways_agree {sink : Sink σ} {content : σ → List UInt8} (takesAll : sink.TakesAll content)
    (state : σ) (template : Template) (lookup : Lookup) :
    Agreement content state template lookup (template.execute sink state lookup).value
        (template.render lookup).value (template.resolved lookup).value ∧
      ((Kept.render lookup).run.run template).value = ((template.render lookup).value, template) ∧
      ((Kept.resolved lookup).run.run template).value =
        ((template.resolved lookup).value, template) := by
  have executed := execute_of_takesAll takesAll state template lookup
  refine ⟨?_, ?_, ?_⟩
  · constructor
    case outcome =>
      cases shown : (template.render lookup).value with
      | error error =>
          rw [shown] at executed
          exact executed.1
      | ok text =>
          rw [shown] at executed
          exact executed.1
    case arrived =>
      intro text shown
      rw [shown] at executed
      exact executed.2
    case untouched =>
      intro error shown
      rw [shown] at executed
      exact executed.2
    case changed =>
      intro answered
      have answers : ∀ name ∈ template.unresolved, lookup name = .ok (answers lookup name) := by
        intro name member
        rcases answered name member with ⟨answer, found⟩
        exact eq_answers found
      rw [value_resolved, value_execute, value_apply template answers]
    case unchanged =>
      intro name member error failed
      rcases exists_value_apply_eq_error member failed with ⟨cause, applied⟩
      rw [value_execute, value_resolved, applied]
      exact ⟨rfl, cause, rfl, rfl⟩
  · rw [value_render_eq, value_run_render]
    rcases (template.apply lookup).value with ⟨_ | _, copy⟩ <;> rfl
  · rw [value_resolved, value_run_resolved]
    rcases (template.apply lookup).value with ⟨_ | _, copy⟩ <;> rfl

theorem ways_agree_unresolved :
    let template : Template :=
      { pieces := [.placeholder "A" "<A>", .text "-", .placeholder "B" "<B>"]
        options := { unresolved := .refuse } }
    let lookup := Lookup.ofMap [("A", "1")]
    let execution := (template.execute Sink.everything [] lookup).value
    Sink.everything.TakesAll (fun taken => taken.reverse.flatten) ∧
      (template.render lookup).value = .error (.write (.unresolved "B")) ∧
      execution.outcome = .error (.write (.unresolved "B")) ∧ execution.state = [] ∧
      execution.template.pieces = [.text "1", .text "-", .placeholder "B" "<B>"] ∧
      ((Kept.render lookup).run.run template).value =
        (.error (.write (.unresolved "B")), template) := by
  intro template lookup execution
  rcases ways_agree Sink.everything_takesAll [] template lookup with ⟨agreement, rendering, _⟩
  have values (name : String) (_ : name ∈ template.unresolved) :
      lookup name = .ok ([("A", "1")].lookup name) := rfl
  have rendered : (template.render lookup).value = .error (.write (.unresolved "B")) := by
    rw [value_render template values]
    rfl
  have changed := agreement.changed fun name _ => ⟨_, rfl⟩
  have copied : (template.resolved lookup).value = .ok
      { template with pieces := [.text "1", .text "-", .placeholder "B" "<B>"] } := by
    rw [value_resolved, value_apply template values]
    rfl
  rw [copied] at changed
  refine ⟨Sink.everything_takesAll, rendered, ?_, agreement.untouched _ rendered, ?_, ?_⟩
  · rw [agreement.outcome, rendered]
    rfl
  · exact congrArg Template.pieces (Except.ok.inj changed).symm
  · rw [rendering, rendered]

end Stencil.Template
