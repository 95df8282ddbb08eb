import Stencil.Log

/-! # Results of attempts

What an attempt results in, apart from what it reports, and what work leaves behind.
-/

namespace Stencil.Attempt

variable {ε α β : Type}

theorem value_bind (first : Attempt ε α) (next : α → Attempt ε β) :
    (first >>= next).value =
      match first.value with
      | .ok value => (next value).value
      | .error error => .error error := by
  change (ExceptT.mk (first.run >>= ExceptT.bindCont next)).value = _
  change (ExceptT.bindCont next first.value).value = _
  cases first.value <;> rfl

@[simp] theorem value_pure (value : α) : (pure value : Attempt ε α).value = .ok value := rfl

@[simp] theorem value_throw (error : ε) : (throw error : Attempt ε α).value = .error error := rfl

@[simp] theorem value_lift (reported : Reported α) :
    (liftM reported : Attempt ε α).value = .ok reported.value := rfl

@[simp] theorem value_ofExcept (outcome : Except ε α) :
    (MonadExcept.ofExcept outcome : Attempt ε α).value = outcome := by
  cases outcome <;> rfl

@[simp] theorem value_report (event : Event) (next : Unit → Attempt ε α) :
    ((report event : Attempt ε Unit) >>= next).value = (next ()).value := by
  rw [value_bind]
  rfl

theorem value_adapt {ε' : Type} (attempt : Attempt ε α) (wrap : ε → ε') :
    (attempt.adapt wrap : Attempt ε' α).value = attempt.value.mapError wrap := rfl

@[simp] theorem mapError_ok {ε' : Type} (value : α) (wrap : ε → ε') :
    (.ok value : Except ε α).mapError wrap = .ok value := rfl

@[simp] theorem mapError_error {ε' : Type} (error : ε) (wrap : ε → ε') :
    (.error error : Except ε α).mapError wrap = .error (wrap error) := rfl

theorem adapt_eq_ok_iff {ε' : Type} {attempt : Attempt ε α} {wrap : ε → ε'} {value : α} :
    (attempt.adapt wrap : Attempt ε' α).value = .ok value ↔ attempt.value = .ok value := by
  rw [value_adapt]
  cases attempt.value with
  | ok other =>
      exact ⟨fun same => congrArg Except.ok (Except.ok.inj same),
        fun same => congrArg Except.ok (Except.ok.inj same)⟩
  | error error => exact iff_of_false (fun same => by cases same) (fun same => by cases same)

theorem bind_eq_ok_iff {first : Attempt ε α} {next : α → Attempt ε β} {result : β} :
    (first >>= next).value = .ok result ↔
      ∃ value, first.value = .ok value ∧ (next value).value = .ok result := by
  rw [value_bind]
  cases first.value <;> simp

theorem exists_of_isOk {outcome : Except ε α} (done : outcome.isOk = true) :
    ∃ value, outcome = .ok value := by
  cases outcome with
  | ok value => exact ⟨value, rfl⟩
  | error error => cases done

theorem except_bind_eq_ok_iff {first : Except ε α} {next : α → Except ε β} {result : β} :
    (first >>= next) = .ok result ↔ ∃ value, first = .ok value ∧ next value = .ok result := by
  cases first with
  | ok value =>
      constructor
      · exact fun done => ⟨value, rfl, done⟩
      · rintro ⟨_, same, done⟩
        cases same
        exact done
  | error error => exact iff_of_false nofun nofun

theorem except_bind_eq_error_iff {first : Except ε α} {next : α → Except ε β} {error : ε} :
    (first >>= next) = .error error ↔
      first = .error error ∨ ∃ value, first = .ok value ∧ next value = .error error := by
  cases first with
  | ok value =>
      constructor
      · exact fun failed => .inr ⟨value, rfl, failed⟩
      · rintro (⟨⟨⟩⟩ | ⟨_, same, failed⟩)
        cases same
        exact failed
  | error other =>
      constructor
      · rintro ⟨⟩
        exact .inl rfl
      · rintro (⟨⟨⟩⟩ | ⟨_, ⟨⟩, _⟩)
        rfl

end Stencil.Attempt

namespace Stencil.Work

variable {σ ε α β : Type}

theorem value_bind (first : Work σ ε α) (next : α → Work σ ε β) (state : σ) :
    ((first >>= next).run.run state).value =
      match (first.run.run state).value with
      | (.ok value, state) => ((next value).run.run state).value
      | (.error error, state) => (.error error, state) := by
  change (ExceptT.bindCont next (first.run.run state).value.1
    (first.run.run state).value.2).value = _
  rcases (first.run.run state).value with ⟨_ | _, after⟩ <;> rfl

@[simp] theorem value_pure (value : α) (state : σ) :
    ((pure value : Work σ ε α).run.run state).value = (.ok value, state) := rfl

@[simp] theorem value_get (state : σ) :
    ((get : Work σ ε σ).run.run state).value = (.ok state, state) := rfl

@[simp] theorem value_set (state next : σ) :
    ((set next : Work σ ε PUnit).run.run state).value = (.ok ⟨⟩, next) := rfl

@[simp] theorem value_modify (change : σ → σ) (state : σ) :
    ((modify change : Work σ ε PUnit).run.run state).value = (.ok ⟨⟩, change state) := rfl

@[simp] theorem value_lift (reported : Reported α) (state : σ) :
    ((liftM reported : Work σ ε α).run.run state).value = (.ok reported.value, state) := rfl

@[simp] theorem value_ofExcept (outcome : Except ε α) (state : σ) :
    ((MonadExcept.ofExcept outcome : Work σ ε α).run.run state).value = (outcome, state) := by
  cases outcome <;> rfl

@[simp] theorem value_adapt {ε' : Type} (work : Work σ ε α) (wrap : ε → ε') (state : σ) :
    ((work.adapt wrap : Work σ ε' α).run.run state).value =
      ((work.run.run state).value.1.mapError wrap, (work.run.run state).value.2) := rfl

@[simp] theorem value_ofAttempt (attempt : Attempt ε α) (state : σ) :
    ((ofAttempt attempt).run.run state).value = (attempt.value, state) := rfl

theorem value_result (work : Work σ ε α) (state : σ) :
    (work.result state).value = (work.run.run state).value.1 := rfl

end Stencil.Work
