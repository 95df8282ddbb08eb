import Stencil.Outline

/-! # Outlines, subtree by subtree

An outline is drawn node by node, from a list of what is still to be drawn. Plain recursion draws
the subtrees first, each by itself, and hangs them below the label of their parent. Both come to the
same outline.
-/

namespace Stencil.Outline

/-- Lines with one text in front of the first of them, and another in front of each of the rest. -/
def hang (first further : String) : List String → List String
  | [] => []
  | line :: later => (first ++ line) :: later.map (further ++ ·)

def hangSiblings : List (List String) → List String
  | [] => []
  | [last] => hang "└── " "    " last
  | inner :: later => hang "├── " "│   " inner ++ hangSiblings later

theorem map_hang (indent first further : String) (lines : List String) :
    (hang first further lines).map (indent ++ ·) =
      hang (indent ++ first) (indent ++ further) lines := by
  cases lines with
  | nil => rfl
  | cons line later => simp [hang, String.append_assoc]

theorem sizeOf_le_sizes {α : Type} [SizeOf α] {node : α} {nodes : List α}
    (member : node ∈ nodes) : sizeOf node ≤ sizes nodes := by
  induction nodes with
  | nil => cases member
  | cons first later induction =>
      rw [sizes_cons]
      rcases List.mem_cons.mp member with same | member
      · rw [same]
        exact Nat.le_add_right _ _
      · have behind := induction member
        omega

variable {α : Type} [SizeOf α] [Outlined α]

def shownChildren (node : α) : List α :=
  if Outlined.isLeaf node then [] else Outlined.children node

theorem sizeOf_lt_of_mem_shownChildren {node child : α} (member : child ∈ shownChildren node) :
    sizeOf child < sizeOf node := by
  unfold shownChildren at member
  split at member
  · cases member
  · exact Nat.lt_of_le_of_lt (sizeOf_le_sizes member) (Outlined.sum_sizeOf_children_lt node)

/-- What an outline has for each node of a tree: the label of the root, and below it what it has for
the children, hung up as siblings. -/
def lines (node : α) : List String :=
  Outlined.label node :: hangSiblings ((shownChildren node).attach.map fun child => lines child.val)
termination_by sizeOf node
decreasing_by exact sizeOf_lt_of_mem_shownChildren child.property

theorem lines_eq (node : α) :
    lines node = Outlined.label node :: hangSiblings ((shownChildren node).map lines) := by
  rw [lines, List.attach_map_val]

def Pending.lines (pending : Pending α) : List String :=
  hang (pending.indent ++ pending.branch.mark) (pending.indent ++ pending.branch.continuation)
    (Outline.lines pending.node)

theorem flatMap_lines_siblings (indent : String) (nodes : List α) :
    (nodes.dropLast.map (Pending.mk indent .inner) ++
        nodes.getLast?.toList.map (Pending.mk indent .last)).flatMap Pending.lines =
      (hangSiblings (nodes.map lines)).map (indent ++ ·) := by
  induction nodes with
  | nil => rfl
  | cons first later induction =>
      cases later with
      | nil => simp [Pending.lines, hangSiblings, map_hang, Branch.mark, Branch.continuation]
      | cons second others =>
          rw [List.dropLast_cons_cons, List.getLast?_cons_cons, List.map_cons, List.cons_append,
            List.flatMap_cons, induction]
          simp [Pending.lines, hangSiblings, map_hang, Branch.mark, Branch.continuation]

theorem Pending.lines_eq (pending : Pending α) :
    pending.lines = pending.line :: pending.children.flatMap Pending.lines := by
  have below : pending.children.flatMap Pending.lines =
      (hangSiblings ((shownChildren pending.node).map Outline.lines)).map
        (pending.indent ++ pending.branch.continuation ++ ·) := by
    unfold Pending.children shownChildren
    split
    · rfl
    · exact flatMap_lines_siblings _ _
  rw [Pending.lines, Outline.lines_eq, below]
  rfl

theorem reverse_draw (pending : List (Pending α)) (drawn : List String) :
    (draw pending drawn).reverse = drawn.reverse ++ pending.flatMap Pending.lines := by
  fun_induction draw pending drawn with
  | case1 drawn => rw [List.flatMap_nil, List.append_nil]
  | case2 drawn next later induction =>
      rw [induction, List.flatMap_append, List.flatMap_cons, next.lines_eq, List.reverse_cons]
      simp only [List.append_assoc, List.cons_append, List.nil_append]

theorem reverse_draw_root (root : α) : (draw [⟨"", .root, root⟩] []).reverse = lines root := by
  rw [reverse_draw, List.flatMap_singleton, Pending.lines, lines_eq]
  simp [hang, Branch.mark, Branch.continuation]

/-- An outline shows a tree as plain recursion does. -/
theorem outline_eq_intercalate_lines (root : α) :
    outline root = String.intercalate "\n" (lines root) := by
  rw [outline, reverse_draw_root]

end Stencil.Outline
