import Mathlib.Data.List.InsertIdx
import Mathlib.Logic.Function.Iterate
import Stencil.UndoStack

/-! # A stack is a list with a cursor

The elements of a stack and the popped ones form one list, and the top of the stack marks a place in
it. Popping and undoing move that mark and leave the list alone. Pushing inserts at the mark, and
committing cuts there. So however a stack is used, it does what a list with a cursor does, which
never turns anything around.
-/

namespace Stencil

inductive StackUse (α : Type) where
  | push (element : α)
  | pop
  | undo
  | undoAll
  | commit
  | takePopped

inductive StackAnswer (α : Type) where
  | nothing
  | popped (top : Option α)
  | undone (found : Bool)
  | taken (elements : List α)
deriving DecidableEq

/-- Every answer to a row of uses, with the state behind it. -/
def trace {α σ : Type} (perform : StackUse α → σ → StackAnswer α × σ) (state : σ) :
    List (StackUse α) → List (StackAnswer α × σ)
  | [] => []
  | use :: later => perform use state :: trace perform (perform use state).2 later

/-! ## Lists with a cursor -/

/-- A list and a place in it, between two elements or at one of the ends. -/
@[ext] structure Cursor (α : Type) where
  line : List α
  place : Nat
  place_le : place ≤ line.length

namespace Cursor

variable {α : Type}

def start : Cursor α :=
  ⟨[], 0, Nat.le_refl 0⟩

def before? (cursor : Cursor α) : Option α :=
  (cursor.line.take cursor.place).getLast?

def back (cursor : Cursor α) : Cursor α where
  line := cursor.line
  place := cursor.place - 1
  place_le := Nat.le_trans (Nat.sub_le _ _) cursor.place_le

def forward (cursor : Cursor α) : Cursor α where
  line := cursor.line
  place := min (cursor.place + 1) cursor.line.length
  place_le := Nat.min_le_right _ _

def toEnd (cursor : Cursor α) : Cursor α where
  line := cursor.line
  place := cursor.line.length
  place_le := Nat.le_refl _

def insert (cursor : Cursor α) (element : α) : Cursor α where
  line := cursor.line.insertIdx cursor.place element
  place := cursor.place + 1
  place_le := by
    rw [List.length_insertIdx, if_pos cursor.place_le]
    exact Nat.succ_le_succ cursor.place_le

def cut (cursor : Cursor α) : Cursor α where
  line := cursor.line.take cursor.place
  place := cursor.place
  place_le := Nat.le_of_eq (List.length_take_of_le cursor.place_le).symm

def perform : StackUse α → Cursor α → StackAnswer α × Cursor α
  | .push element, cursor => (.nothing, cursor.insert element)
  | .pop, cursor => (.popped cursor.before?, cursor.back)
  | .undo, cursor => (.undone (cursor.place < cursor.line.length), cursor.forward)
  | .undoAll, cursor => (.nothing, cursor.toEnd)
  | .commit, cursor => (.nothing, cursor.cut)
  | .takePopped, cursor => (.taken (cursor.line.drop cursor.place), cursor.cut)

theorem line_iterate_back (cursor : Cursor α) (count : Nat) :
    (back^[count] cursor).line = cursor.line := by
  induction count with
  | zero => rfl
  | succ count induction =>
      rw [Function.iterate_succ_apply']
      exact induction

theorem place_iterate_back (cursor : Cursor α) (count : Nat) :
    (back^[count] cursor).place = cursor.place - count := by
  induction count with
  | zero => rfl
  | succ count induction =>
      rw [Function.iterate_succ_apply']
      change (back^[count] cursor).place - 1 = _
      rw [induction, Nat.sub_sub]

end Cursor

namespace UndoStack

variable {α : Type}

def perform : StackUse α → UndoStack α → StackAnswer α × UndoStack α
  | .push element, stack => (.nothing, stack.push element)
  | .pop, stack => (.popped stack.pop.1, stack.pop.2)
  | .undo, stack => (.undone stack.undo.1, stack.undo.2)
  | .undoAll, stack => (.nothing, stack.undoAll)
  | .commit, stack => (.nothing, stack.commit)
  | .takePopped, stack => (.taken stack.takePopped.1, stack.takePopped.2)

/-- The list of a stack and its log, with the cursor at the top of the stack. -/
def cursor (stack : UndoStack α) : Cursor α where
  line := stack.timeline
  place := stack.size
  place_le := by simp [timeline, toList, size]

theorem cursor_injective : Function.Injective (cursor (α := α)) := by
  rintro ⟨elements, popped⟩ ⟨others, otherPopped⟩ same
  have line : elements.reverse ++ popped = others.reverse ++ otherPopped :=
    congrArg Cursor.line same
  have place : elements.length = others.length := congrArg Cursor.place same
  rcases List.append_inj line (by simpa using place) with ⟨reversed, rfl⟩
  rw [List.reverse_inj.mp reversed]

theorem take_timeline (stack : UndoStack α) : stack.timeline.take stack.size = stack.toList :=
  List.take_left' List.length_reverse

theorem drop_timeline (stack : UndoStack α) : stack.timeline.drop stack.size = stack.popped :=
  List.drop_left' List.length_reverse

/-! ## One use -/

theorem insertIdx_length_append (front behind : List α) (element : α) :
    (front ++ behind).insertIdx front.length element = front ++ element :: behind := by
  induction front with
  | nil => rfl
  | cons first later induction =>
      rw [List.cons_append, List.length_cons, List.insertIdx_succ_cons, induction, List.cons_append]

theorem cursor_push (stack : UndoStack α) (element : α) :
    (stack.push element).cursor = stack.cursor.insert element := by
  ext1
  · have inserted := insertIdx_length_append stack.toList stack.popped element
    rw [toList, List.length_reverse] at inserted
    simp [cursor, Cursor.insert, timeline, toList, push, size, inserted]
  · rfl

theorem fst_pop (stack : UndoStack α) : stack.pop.1 = stack.cursor.before? := by
  change _ = (stack.timeline.take stack.size).getLast?
  rw [take_timeline, toList, List.getLast?_reverse]
  rcases stack with ⟨_ | ⟨top, below⟩, popped⟩ <;> rfl

theorem cursor_pop (stack : UndoStack α) : stack.pop.2.cursor = stack.cursor.back := by
  ext1
  · exact stack.timeline_pop
  · rcases stack with ⟨_ | ⟨top, below⟩, popped⟩ <;> rfl

theorem fst_undo (stack : UndoStack α) :
    stack.undo.1 = decide (stack.cursor.place < stack.cursor.line.length) := by
  rcases stack with ⟨elements, _ | ⟨last, earlier⟩⟩ <;>
    simp [undo, cursor, timeline, toList, size]

theorem cursor_undo (stack : UndoStack α) : stack.undo.2.cursor = stack.cursor.forward := by
  ext1
  · exact stack.timeline_undo
  · rcases stack with ⟨elements, _ | ⟨last, earlier⟩⟩ <;>
      simp [undo, cursor, Cursor.forward, timeline, toList, size]

theorem cursor_undoAll (stack : UndoStack α) : stack.undoAll.cursor = stack.cursor.toEnd := by
  ext1
  · exact stack.timeline_undoAll
  · rw [undoAll_eq]
    simp [cursor, Cursor.toEnd, size]

theorem cursor_commit (stack : UndoStack α) : stack.commit.cursor = stack.cursor.cut := by
  ext1
  · exact (List.append_nil _).trans stack.take_timeline.symm
  · rfl

theorem fst_takePopped (stack : UndoStack α) :
    stack.takePopped.1 = stack.cursor.line.drop stack.cursor.place :=
  stack.drop_timeline.symm

theorem cursor_takePopped (stack : UndoStack α) :
    stack.takePopped.2.cursor = stack.cursor.cut :=
  stack.cursor_commit

theorem perform_cursor (use : StackUse α) (stack : UndoStack α) :
    stack.cursor.perform use = Prod.map id cursor (stack.perform use) := by
  cases use with
  | push element => simp [Cursor.perform, perform, cursor_push]
  | pop => simp [Cursor.perform, perform, fst_pop, cursor_pop]
  | undo => simp [Cursor.perform, perform, fst_undo, cursor_undo]
  | undoAll => simp [Cursor.perform, perform, cursor_undoAll]
  | commit => simp [Cursor.perform, perform, cursor_commit]
  | takePopped => simp [Cursor.perform, perform, fst_takePopped, cursor_takePopped]

/-! ## Many uses -/

theorem trace_map_cursor (uses : List (StackUse α)) (stack : UndoStack α) :
    (trace perform stack uses).map (Prod.map id cursor) =
      trace Cursor.perform stack.cursor uses := by
  induction uses generalizing stack with
  | nil => rfl
  | cons use later induction =>
      rw [trace, trace, List.map_cons, induction, perform_cursor]
      rfl

def popTimes (stack : UndoStack α) (count : Nat) : UndoStack α :=
  (fun stack => stack.pop.2)^[count] stack

theorem cursor_popTimes (stack : UndoStack α) (count : Nat) :
    (stack.popTimes count).cursor = Cursor.back^[count] stack.cursor :=
  Function.Semiconj.iterate_right (fun stack => cursor_pop stack) count stack

theorem undoAll_popTimes (stack : UndoStack α) (count : Nat) :
    (stack.popTimes count).undoAll = stack.undoAll := by
  apply cursor_injective
  rw [cursor_undoAll, cursor_undoAll, cursor_popTimes]
  ext1
  · exact Cursor.line_iterate_back _ _
  · exact congrArg List.length (Cursor.line_iterate_back _ _)

theorem timeline_popTimes (stack : UndoStack α) (count : Nat) :
    (stack.popTimes count).timeline = stack.timeline :=
  (congrArg Cursor.line (cursor_popTimes stack count)).trans (Cursor.line_iterate_back _ _)

theorem size_popTimes (stack : UndoStack α) (count : Nat) :
    (stack.popTimes count).size = stack.size - count :=
  (congrArg Cursor.place (cursor_popTimes stack count)).trans (Cursor.place_iterate_back _ _)

variable {stack : UndoStack α}

theorem undoAll_of_settled (settled : stack.pending = 0) : stack.undoAll = stack := by
  rcases stack with ⟨elements, popped⟩
  rcases List.length_eq_zero_iff.mp settled with rfl
  rfl

theorem timeline_of_settled (settled : stack.pending = 0) : stack.timeline = stack.toList := by
  rw [timeline, List.length_eq_zero_iff.mp settled, List.append_nil]

theorem takePopped_popTimes (settled : stack.pending = 0) (count : Nat) :
    (stack.popTimes count).takePopped.2.toList ++ (stack.popTimes count).takePopped.1 =
      stack.toList :=
  (stack.timeline_popTimes count).trans (timeline_of_settled settled)

theorem length_takePopped_popTimes (settled : stack.pending = 0) (count : Nat) :
    (stack.popTimes count).takePopped.1.length = min count stack.size := by
  have lengths := congrArg List.length (takePopped_popTimes settled count)
  have left := stack.size_popTimes count
  rw [List.length_append] at lengths
  have whole : stack.toList.length = stack.size := List.length_reverse
  have rest : (stack.popTimes count).takePopped.2.toList.length = (stack.popTimes count).size :=
    List.length_reverse
  omega

/-- A stack whose pops can be undone is a list with a cursor: whatever is done with an empty stack, it
answers and stands at every step as the list with the cursor does. So undoing brings back what any
number of pops took off, and what is handed over after pops is just what they took off, as it lay. -/
theorem trace_eq_trace_cursor (uses : List (StackUse α)) :
    (trace perform (empty : UndoStack α) uses).map (Prod.map id cursor) =
      trace Cursor.perform .start uses ∧
    (∀ (stack : UndoStack α) count, (stack.popTimes count).undoAll = stack.undoAll) ∧
    ∀ (stack : UndoStack α) count, stack.pending = 0 →
      (stack.popTimes count).undoAll = stack ∧
      (stack.popTimes count).takePopped.2.toList ++ (stack.popTimes count).takePopped.1 =
        stack.toList ∧
      (stack.popTimes count).takePopped.1.length = min count stack.size := by
  refine ⟨trace_map_cursor uses empty, undoAll_popTimes, ?_⟩
  intro stack count settled
  exact ⟨(undoAll_popTimes stack count).trans (undoAll_of_settled settled),
    takePopped_popTimes settled count, length_takePopped_popTimes settled count⟩

theorem trace_eq_trace_cursor_inserted :
    let uses : List (StackUse Nat) :=
      [.push 1, .push 2, .pop, .push 3, .pop, .pop, .pop, .undo, .takePopped]
    let stack : UndoStack Nat := ⟨[3, 2, 1], []⟩
    (trace perform empty uses).map (Prod.map id cursor) = trace Cursor.perform .start uses ∧
    (trace Cursor.perform .start uses).map (fun step => (step.1, step.2.line, step.2.place)) =
      [(.nothing, [1], 1), (.nothing, [1, 2], 2), (.popped (some 2), [1, 2], 1),
        (.nothing, [1, 3, 2], 2), (.popped (some 3), [1, 3, 2], 1), (.popped (some 1), [1, 3, 2], 0),
        (.popped none, [1, 3, 2], 0), (.undone true, [1, 3, 2], 1), (.taken [3, 2], [1], 1)] ∧
    stack.pending = 0 ∧ (stack.popTimes 2).undoAll = stack ∧
    (stack.popTimes 2).takePopped.2.toList ++ (stack.popTimes 2).takePopped.1 = stack.toList ∧
    (stack.popTimes 2).takePopped.1.length = min 2 stack.size := by
  intro uses stack
  have settled : stack.pending = 0 := rfl
  have follows := trace_eq_trace_cursor uses
  exact ⟨follows.1, by decide, settled, follows.2.2 stack 2 settled⟩

end UndoStack

end Stencil
