/-!
# Outlines of trees

An outline shows a tree with one node on a line. Lines and corners in front of a node lead to its
parent:

```text
Source
├── Source (I)
│   └── Element
│       └── text ("hi")
└── end of input ("")
```

Trees can be as deep as a template is long, so the outline is drawn with a list of the nodes that
are still to be drawn.
-/

namespace Stencil

/-- The sizes of several things together. The zero that their sum starts from is named, since
libraries know different ones. -/
abbrev sizes {α : Type} [SizeOf α] (things : List α) : Nat :=
  @List.sum Nat _ Zero.ofOfNat0 (things.map sizeOf)

@[simp] theorem sizes_nil {α : Type} [SizeOf α] : sizes ([] : List α) = 0 := rfl

@[simp] theorem sizes_cons {α : Type} [SizeOf α] (first : α) (later : List α) :
    sizes (first :: later) = sizeOf first + sizes later := rfl

@[simp] theorem sizes_append {α : Type} [SizeOf α] (front back : List α) :
    sizes (front ++ back) = sizes front + sizes back := by
  simp [sizes]

/-- Trees whose nodes have a label in one line. A node that says it is a leaf is drawn without its
children. The children of a node are together smaller than the node. -/
class Outlined (α : Type) [SizeOf α] where
  label : α → String
  isLeaf : α → Bool
  children : α → List α
  sum_sizeOf_children_lt : ∀ node,
    @List.sum Nat _ Zero.ofOfNat0 ((children node).map sizeOf) < sizeOf node

namespace Outline

/-- How a node hangs on its parent: it has none, or it has siblings behind it, or it is the last. -/
inductive Branch where
  | root
  | inner
  | last
deriving DecidableEq

def Branch.mark : Branch → String
  | root => ""
  | inner => "├── "
  | last => "└── "

def Branch.continuation : Branch → String
  | root => ""
  | inner => "│   "
  | last => "    "

structure Pending (α : Type) where
  indent : String
  branch : Branch
  node : α

variable {α : Type} [SizeOf α] [Outlined α]

def Pending.line (pending : Pending α) : String :=
  pending.indent ++ pending.branch.mark ++ Outlined.label pending.node

def Pending.children (pending : Pending α) : List (Pending α) :=
  if Outlined.isLeaf pending.node then []
  else
    let indent := pending.indent ++ pending.branch.continuation
    let children := Outlined.children pending.node
    children.dropLast.map (⟨indent, .inner, ·⟩) ++ children.getLast?.toList.map (⟨indent, .last, ·⟩)

theorem Pending.map_node_children (pending : Pending α) :
    pending.children.map Pending.node =
      if Outlined.isLeaf pending.node then [] else Outlined.children pending.node := by
  unfold Pending.children
  split
  · rfl
  · simp only [List.map_append, List.map_map, Function.comp_def, List.map_id']
    generalize Outlined.children pending.node = children
    by_cases empty : children = []
    · simp [empty]
    · simp [List.getLast?_eq_some_getLast empty, List.dropLast_concat_getLast empty]

/-- Draws the pending nodes and everything below them, and puts their lines in front of the lines
drawn so far, the latest first. -/
def draw (pending : List (Pending α)) (drawn : List String) : List String :=
  match pending with
  | [] => drawn
  | next :: later => draw (next.children ++ later) (next.line :: drawn)
termination_by sizes (pending.map Pending.node)
decreasing_by
  have smaller : sizes (Outlined.children next.node) < sizeOf next.node :=
    Outlined.sum_sizeOf_children_lt next.node
  have nodes : sizes (next.children.map Pending.node) ≤ sizes (Outlined.children next.node) := by
    rw [next.map_node_children]
    split
    · exact Nat.zero_le _
    · exact Nat.le_refl _
  rw [List.map_append, List.map_cons, sizes_append, sizes_cons]
  omega

end Outline

def outline {α : Type} [SizeOf α] [Outlined α] (root : α) : String :=
  String.intercalate "\n" (Outline.draw [⟨"", .root, root⟩] []).reverse

end Stencil
