/-!
# A stack whose pops can be undone

Popping an element moves it to a log. Undoing puts logged elements where they were, and committing
forgets them. Seen from the bottom up, the elements and the log together form one list, and popping
and undoing only move a cursor in it.
-/

namespace Stencil

structure UndoStack (α : Type) where
  elements : List α
  /-- The popped elements, the one popped last in front. -/
  popped : List α
deriving DecidableEq

namespace UndoStack

variable {α : Type}

def empty : UndoStack α :=
  ⟨[], []⟩

def push (stack : UndoStack α) (element : α) : UndoStack α :=
  { stack with elements := element :: stack.elements }

def peek? (stack : UndoStack α) : Option α :=
  stack.elements.head?

/-- Moves the top element to the log and shows it. An empty stack stays as it is. -/
def pop (stack : UndoStack α) : Option α × UndoStack α :=
  match stack.elements with
  | [] => (none, stack)
  | top :: below => (some top, ⟨below, top :: stack.popped⟩)

def undo (stack : UndoStack α) : Bool × UndoStack α :=
  match stack.popped with
  | [] => (false, stack)
  | last :: earlier => (true, ⟨last :: stack.elements, earlier⟩)

def undoAll (stack : UndoStack α) : UndoStack α :=
  ⟨stack.popped.foldl (fun elements element => element :: elements) stack.elements, []⟩

def commit (stack : UndoStack α) : UndoStack α :=
  { stack with popped := [] }

/-- Forgets the popped elements and hands them over, the one that lay lowest first. -/
def takePopped (stack : UndoStack α) : List α × UndoStack α :=
  (stack.popped, stack.commit)

def pending (stack : UndoStack α) : Nat :=
  stack.popped.length

def size (stack : UndoStack α) : Nat :=
  stack.elements.length

def isEmpty (stack : UndoStack α) : Bool :=
  stack.elements.isEmpty

def toList (stack : UndoStack α) : List α :=
  stack.elements.reverse

/-- The elements and the log as one list, from the bottom up. -/
def timeline (stack : UndoStack α) : List α :=
  stack.toList ++ stack.popped

@[simp] theorem timeline_pop (stack : UndoStack α) : stack.pop.2.timeline = stack.timeline := by
  unfold pop
  split <;> simp_all [timeline, toList]

@[simp] theorem timeline_undo (stack : UndoStack α) :
    stack.undo.2.timeline = stack.timeline := by
  unfold undo
  split <;> simp_all [timeline, toList]

theorem elements_undoAll (stack : UndoStack α) :
    stack.undoAll.elements = stack.popped.reverse ++ stack.elements := by
  have general : ∀ popped elements : List α,
      popped.foldl (fun elements element => element :: elements) elements =
        popped.reverse ++ elements := by
    intro popped
    induction popped with
    | nil => simp
    | cons last earlier induction => simp [induction]
  exact general _ _

theorem undoAll_eq (stack : UndoStack α) : stack.undoAll = ⟨stack.timeline.reverse, []⟩ := by
  have elements := elements_undoAll stack
  have popped : stack.undoAll.popped = [] := rfl
  rw [timeline, toList, List.reverse_append, List.reverse_reverse, ← elements, ← popped]

@[simp] theorem timeline_undoAll (stack : UndoStack α) :
    stack.undoAll.timeline = stack.timeline := by
  rw [timeline, toList, elements_undoAll]
  simp [timeline, toList, undoAll]

end UndoStack

end Stencil
