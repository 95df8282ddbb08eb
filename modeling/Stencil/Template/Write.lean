import Stencil.Template.Basic
import Stencil.Template.Sink

/-!
# Writing to a sink

The portions of a template are offered to a sink one after the other. What the sink leaves is
offered again, and so is an offer that was interrupted. A sink that takes nothing of an offer has
stopped accepting bytes.
-/

namespace Stencil

variable {σ : Type}

/-- Offers bytes until the sink has taken all of them. `written` counts what it took before. -/
def Sink.writeAll (sink : Sink σ) (state : σ) (bytes : List UInt8) (written : Nat) :
    Except WriteError Nat × σ :=
  if bytes.isEmpty then (.ok written, state)
  else
    match _answer : sink.write state bytes with
    | (.took 0, state) => (.error (.stopped written), state)
    | (.took (less + 1), state) =>
      sink.writeAll state (bytes.drop (less + 1)) (written + (less + 1))
    | (.interrupted, state) => sink.writeAll state bytes written
    | (.failed reason, state) => (.error (.sinkFailed reason), state)
termination_by (bytes.length, sink.patience state bytes)
decreasing_by
  · have taken := sink.took_le _ _ _ (congrArg Prod.fst _answer)
    apply Prod.Lex.left
    simp only [List.length_drop]
    omega
  · have patience := sink.patience_lt _ _ (congrArg Prod.fst _answer)
    rw [_answer] at patience
    exact Prod.Lex.right _ patience

def Sink.writePortions (sink : Sink σ) (state : σ) (written : Nat) :
    List String → Except WriteError Nat × σ
  | [] => (.ok written, state)
  | portion :: later =>
    match sink.writeAll state portion.toUTF8.toList written with
    | (.ok written, state) => sink.writePortions state written later
    | (.error error, state) => (.error error, state)

namespace Template

/-- Writes a template to a sink, which in the end is asked to pass everything on. -/
def write (template : Template) (sink : Sink σ) (state : σ) : Except WriteError Unit × σ :=
  match template.checkResolved with
  | .error error => (.error error, state)
  | .ok () =>
    match sink.writePortions state 0 template.portions with
    | (.error error, state) => (.error error, state)
    | (.ok _, state) =>
      match sink.flush state with
      | (.ok (), state) => (.ok (), state)
      | (.error reason, state) => (.error (.sinkFailed reason), state)

/-- What executing a template leaves: the template, the sink's state, and whether it succeeded. -/
structure Execution (σ : Type) where
  template : Template
  state : σ
  outcome : Except TemplateError Unit

namespace Kept

def execute (sink : Sink σ) (state : σ) (lookup : Lookup) :
    StateT Template Reported (Except TemplateError Unit × σ) := do
  match ← (apply lookup).run with
  | .error error => return (.error (.apply error), state)
  | .ok _ =>
    let (outcome, state) := (← get).write sink state
    return (outcome.mapError .write, state)

/-- Writes a copy with data applied to a sink that takes everything, and shows what it took. -/
def render (lookup : Lookup) : Kept TemplateError String := do
  let copy ← (resolved lookup).adapt .apply
  let (outcome, taken) := copy.write .everything []
  MonadExcept.ofExcept (outcome.mapError .write)
  return Text.ofUtf8 ⟨taken.reverse.flatten.toArray⟩

end Kept

def execute (template : Template) (sink : Sink σ) (state : σ) (lookup : Lookup) :
    Reported (Execution σ) := do
  let ((outcome, state), template) ← (Kept.execute sink state lookup).run template
  pure ⟨template, state, outcome⟩

def render (template : Template) (lookup : Lookup) : Attempt TemplateError String :=
  (Kept.render lookup).result template

end Template

end Stencil
