import Stencil.Parse.Reduction

/-! # What a reduction does

A reduction succeeds exactly if the top of the stack shows the right-hand side of its rule, and then
it replaces just that. Otherwise it puts back what it popped.
-/

namespace Stencil

theorem popKinds_cons (lhs : Symbol) (preceding : Option Symbol) (expected : Symbol)
    (deeper : List Symbol) (top : Token) (below popped : List Token) :
    popKinds lhs preceding (expected :: deeper) ⟨top :: below, popped⟩ =
      if top.kind = expected then popKinds lhs (some expected) deeper ⟨below, top :: popped⟩
      else (.error { lhs, expected, got := some top.kind, preceding },
        ⟨below, top :: popped⟩) := by
  by_cases same : top.kind = expected <;> simp [popKinds, UndoStack.pop, same]

theorem popKinds_map_kind (lhs : Symbol) (preceding : Option Symbol)
    (taken below popped : List Token) :
    popKinds lhs preceding (taken.map Token.kind) ⟨taken ++ below, popped⟩ =
      (.ok (), ⟨below, taken.reverse ++ popped⟩) := by
  induction taken generalizing preceding popped with
  | nil => rfl
  | cons top deeper induction =>
      rw [List.map_cons, List.cons_append, popKinds_cons, if_pos rfl, induction]
      simp

theorem exists_of_popKinds_eq_ok {lhs : Symbol} {preceding : Option Symbol}
    {expected : List Symbol} {elements popped : List Token} {stack : UndoStack Token}
    (done : popKinds lhs preceding expected ⟨elements, popped⟩ = (.ok (), stack)) :
    ∃ taken below, elements = taken ++ below ∧ taken.map Token.kind = expected := by
  induction expected generalizing preceding elements popped with
  | nil => exact ⟨[], elements, rfl, rfl⟩
  | cons symbol deeper induction =>
      cases elements with
      | nil => simp [popKinds, UndoStack.pop] at done
      | cons top rest =>
          rw [popKinds_cons] at done
          split at done
          · rename_i same
            rcases induction done with ⟨taken, below, rfl, kinds⟩
            exact ⟨top :: taken, below, rfl, by rw [List.map_cons, kinds, same]⟩
          · simp at done

theorem timeline_popKinds (lhs : Symbol) (preceding : Option Symbol) (expected : List Symbol)
    (stack : UndoStack Token) :
    (popKinds lhs preceding expected stack).2.timeline = stack.timeline := by
  induction expected generalizing preceding stack with
  | nil => rfl
  | cons symbol deeper induction =>
      rw [popKinds]
      dsimp only
      split
      · rw [induction, UndoStack.timeline_pop]
      · exact UndoStack.timeline_pop stack

theorem exists_of_popKinds_eq_error {lhs : Symbol} {preceding : Option Symbol}
    {expected : List Symbol} {elements popped : List Token} {cause : ReduceError}
    (failed : (popKinds lhs preceding expected ⟨elements, popped⟩).1 = .error cause) :
    ∃ matched deeper, expected = matched ++ cause.expected :: deeper ∧
      matched <+: elements.map Token.kind ∧ cause.lhs = lhs ∧
      cause.got = (elements.map Token.kind)[matched.length]? ∧
      cause.got ≠ some cause.expected ∧ cause.preceding = matched.getLast?.or preceding := by
  induction expected generalizing preceding elements popped with
  | nil => cases failed
  | cons symbol deeper induction =>
      cases elements with
      | nil =>
          cases failed
          exact ⟨[], deeper, rfl, List.nil_prefix, rfl, rfl, nofun, rfl⟩
      | cons top rest =>
          rw [popKinds_cons] at failed
          split at failed
          · rename_i same
            rcases induction failed with ⟨matched, more, rfl, shown, own, got, differs, before⟩
            refine ⟨symbol :: matched, more, rfl, ?_, own, got, differs, ?_⟩
            · rw [List.map_cons, same]
              exact List.cons_prefix_cons.mpr ⟨rfl, shown⟩
            · rw [before, List.getLast?_cons]
              cases matched.getLast? <;> rfl
          · rename_i differs
            cases failed
            exact ⟨[], deeper, rfl, List.nil_prefix, rfl, rfl,
              fun same => differs (Option.some.inj same), rfl⟩

namespace Rule

variable {rule : Rule}

theorem reduce_append {children : List Token} (kinds : children.map Token.kind = rule.rhs)
    (below : List Token) :
    rule.reduce ⟨children.reverse ++ below, []⟩ =
      (.ok (), ⟨.ofChildren rule.lhs children :: below, []⟩) := by
  have order : rule.stackOrder = children.reverse.map Token.kind := by
    rw [stackOrder, ← kinds, List.map_reverse]
  rw [reduce, order, popKinds_map_kind]
  simp [UndoStack.takePopped, UndoStack.commit, UndoStack.push]

theorem exists_of_reduce_eq_ok {elements : List Token} {stack : UndoStack Token}
    (done : rule.reduce ⟨elements, []⟩ = (.ok (), stack)) :
    ∃ children below, elements = children.reverse ++ below ∧
      children.map Token.kind = rule.rhs ∧
      stack = ⟨.ofChildren rule.lhs children :: below, []⟩ := by
  have undone := done
  rw [reduce] at undone
  split at undone
  · simp at undone
  · rename_i popping
    rcases exists_of_popKinds_eq_ok popping with ⟨taken, below, rfl, shown⟩
    have kinds : taken.reverse.map Token.kind = rule.rhs := by
      rw [List.map_reverse, shown, stackOrder, List.reverse_reverse]
    have whole := reduce_append kinds below
    rw [List.reverse_reverse, done] at whole
    exact ⟨taken.reverse, below, by simp, kinds, (Prod.mk.inj whole).2⟩

theorem reduce_snd_of_error {stack : UndoStack Token} {cause : ReduceError}
    (failed : (rule.reduce stack).1 = .error cause) : (rule.reduce stack).2 = stack.undoAll := by
  have kept := timeline_popKinds rule.lhs none rule.stackOrder stack
  rw [reduce] at failed ⊢
  split at failed
  · rename_i _ undone popping
    rw [popping] at kept
    change undone.undoAll = stack.undoAll
    rw [UndoStack.undoAll_eq, UndoStack.undoAll_eq, kept]
  · cases failed

theorem exists_of_reduce_eq_error {elements : List Token} {cause : ReduceError}
    (failed : (rule.reduce ⟨elements, []⟩).1 = .error cause) :
    ∃ matched deeper, rule.stackOrder = matched ++ cause.expected :: deeper ∧
      matched <+: elements.map Token.kind ∧ cause.lhs = rule.lhs ∧
      cause.got = (elements.map Token.kind)[matched.length]? ∧
      cause.got ≠ some cause.expected ∧ cause.preceding = matched.getLast? := by
  have popping : (popKinds rule.lhs none rule.stackOrder ⟨elements, []⟩).1 = .error cause := by
    rw [reduce] at failed
    split at failed <;> rename_i popped <;> rw [popped]
    · exact failed
    · cases failed
  simpa using exists_of_popKinds_eq_error popping

theorem reduce_of_stackOrder_prefix {elements : List Token}
    (shown : rule.stackOrder <+: elements.map Token.kind) :
    (rule.reduce ⟨elements, []⟩).1 = .ok () := by
  rcases shown with ⟨below, split⟩
  rcases List.map_eq_append_iff.mp split.symm with ⟨taken, rest, rfl, kinds, _⟩
  have order : taken.reverse.map Token.kind = rule.rhs := by
    rw [List.map_reverse, kinds, stackOrder, List.reverse_reverse]
  have whole := reduce_append order rest
  rw [List.reverse_reverse] at whole
  rw [whole]

theorem reduce_snd_of_ok {elements : List Token} (done : (rule.reduce ⟨elements, []⟩).1 = .ok ()) :
    (elements.take rule.length).reverse.map Token.kind = rule.rhs ∧
      (rule.reduce ⟨elements, []⟩).2 =
        ⟨.ofChildren rule.lhs (elements.take rule.length).reverse :: elements.drop rule.length,
          []⟩ := by
  rcases exists_of_reduce_eq_ok (Prod.ext done rfl) with ⟨children, below, rfl, kinds, after⟩
  have size : children.reverse.length = rule.length := by
    rw [List.length_reverse, length, ← kinds, List.length_map]
  rw [List.take_left' size, List.drop_left' size, List.reverse_reverse]
  exact ⟨kinds, after⟩

theorem reduce_fst_eq_ok_iff {elements : List Token} :
    (rule.reduce ⟨elements, []⟩).1 = .ok () ↔ rule.stackOrder <+: elements.map Token.kind := by
  constructor
  · intro done
    have kinds := (reduce_snd_of_ok done).1
    rw [stackOrder, ← kinds, List.map_reverse, List.reverse_reverse, List.map_take]
    exact List.take_prefix _ _
  · exact reduce_of_stackOrder_prefix

end Rule

end Stencil
