import Mathlib.Data.List.Forall2
import Stencil.Proofs.Outline.Subtrees
import Stencil.Proofs.Text.Quoting
import Stencil.Token

/-! # Outlines that tell trees apart

An outline leaves out nothing but where tokens stand and what they think comes next: trees with the
same outline have the same shape, the same kinds and the same texts. The groups of line characters
in front of a label tell how deep a node lies, and no label reaches beyond its line.
-/

namespace Stencil

/-- Two trees that differ at most in spans and lookaheads: leaves of one kind and one text, or
phrases of one kind whose parts are alike, one after the other. -/
inductive Token.Alike : Token → Token → Prop
  | leaf {kind : Symbol} {text : String} {span span' : Span} {next next' : Option Lookahead} :
      Alike (.leaf kind text span next) (.leaf kind text span' next')
  | node {kind : Symbol} {children children' : List Token} {span span' : Span}
      {next next' : Option Lookahead} (parts : List.Forall₂ Alike children children') :
      Alike (.node kind children span next) (.node kind children' span' next')

namespace Outline

/-! ## Siblings -/

def branchBefore (behind : List (List String)) : Branch :=
  if behind.isEmpty then .last else .inner

theorem branchBefore_ne_root (behind : List (List String)) : branchBefore behind ≠ .root := by
  unfold branchBefore
  split <;> exact nofun

theorem hangSiblings_cons (line : String) (later : List String) (behind : List (List String)) :
    hangSiblings ((line :: later) :: behind) =
      ((branchBefore behind).mark ++ line) ::
        (later.map ((branchBefore behind).continuation ++ ·) ++ hangSiblings behind) := by
  cases behind with
  | nil => exact congrArg (List.cons _) (List.append_nil _).symm
  | cons => rfl

theorem mark_inj {left right : Branch} (same : left.mark.toList = right.mark.toList) :
    left = right := by
  revert same
  cases left <;> cases right <;> decide

theorem mark_append_inj {left right : Branch} (leftHangs : left ≠ .root)
    (rightHangs : right ≠ .root) {line line' : String}
    (same : left.mark ++ line = right.mark ++ line') : left = right ∧ line = line' := by
  have long : ∀ branch : Branch, branch ≠ .root → branch.mark.toList.length = 4 := by
    intro branch hangs
    cases branch with
    | root => exact absurd rfl hangs
    | inner | last => rfl
  have characters := congrArg String.toList same
  rw [String.toList_append, String.toList_append] at characters
  have lengths := (long left leftHangs).trans (long right rightHangs).symm
  rcases List.append_inj characters lengths with ⟨marks, lines⟩
  exact ⟨mark_inj marks, String.toList_inj.mp lines⟩

/-- Whether a line stands below the mark of a node and shows something further down. -/
def isBelow (line : String) : Bool :=
  line.toList.head? = some '│' || line.toList.head? = some ' '

theorem isBelow_continuation {branch : Branch} (hangs : branch ≠ .root) (line : String) :
    isBelow (branch.continuation ++ line) = true := by
  cases branch with
  | root => exact absurd rfl hangs
  | inner | last => simp [isBelow, Branch.continuation]

theorem not_isBelow_mark {branch : Branch} (hangs : branch ≠ .root) (line : String) :
    ¬isBelow (branch.mark ++ line) = true := by
  cases branch with
  | root => exact absurd rfl hangs
  | inner | last => simp [isBelow, Branch.mark]

theorem takeWhile_isBelow_hangSiblings {behind : List (List String)} (drawn : [] ∉ behind) :
    (hangSiblings behind).takeWhile isBelow = [] := by
  match behind, drawn with
  | [], _ => rfl
  | [] :: _, drawn => exact absurd List.mem_cons_self drawn
  | (line :: later) :: others, _ =>
      rw [hangSiblings_cons]
      exact List.takeWhile_cons_of_neg (not_isBelow_mark (branchBefore_ne_root others) line)

theorem takeWhile_isBelow {branch : Branch} (hangs : branch ≠ .root) (later : List String)
    {behind : List (List String)} (drawn : [] ∉ behind) :
    (later.map (branch.continuation ++ ·) ++ hangSiblings behind).takeWhile isBelow =
      later.map (branch.continuation ++ ·) := by
  have below : ∀ line ∈ later.map (branch.continuation ++ ·), isBelow line = true :=
    List.forall_mem_map.mpr fun line _ => isBelow_continuation hangs line
  rw [List.takeWhile_append_of_pos below, takeWhile_isBelow_hangSiblings drawn, List.append_nil]

theorem continuation_append_injective (branch : Branch) :
    Function.Injective (branch.continuation ++ ·) := by
  intro left right same
  have characters := congrArg String.toList same
  simp only [String.toList_append] at characters
  exact String.toList_inj.mp (List.append_cancel_left characters)

theorem hangSiblings_inj {left right : List (List String)} (leftDrawn : [] ∉ left)
    (rightDrawn : [] ∉ right) (same : hangSiblings left = hangSiblings right) : left = right := by
  induction left generalizing right with
  | nil =>
      match right, rightDrawn with
      | [], _ => rfl
      | [] :: _, drawn => exact absurd List.mem_cons_self drawn
      | (_ :: _) :: _, _ =>
          rw [hangSiblings_cons] at same
          cases same
  | cons first behind induction =>
      match first, leftDrawn, right, rightDrawn with
      | [], drawn, _, _ => exact absurd List.mem_cons_self drawn
      | _ :: _, _, [], _ =>
          rw [hangSiblings_cons] at same
          cases same
      | _ :: _, _, [] :: _, drawn => exact absurd List.mem_cons_self drawn
      | line :: later, leftDrawn, (line' :: later') :: behind', rightDrawn =>
          have behindDrawn := List.not_mem_of_not_mem_cons leftDrawn
          have behindDrawn' := List.not_mem_of_not_mem_cons rightDrawn
          have hangs := branchBefore_ne_root behind
          rw [hangSiblings_cons, hangSiblings_cons] at same
          rcases List.cons.inj same with ⟨head, tail⟩
          rcases mark_append_inj hangs (branchBefore_ne_root behind') head with ⟨branches, rfl⟩
          rw [← branches] at tail
          have below := congrArg (List.takeWhile isBelow) tail
          rw [takeWhile_isBelow hangs _ behindDrawn,
            takeWhile_isBelow hangs _ behindDrawn'] at below
          rw [below] at tail
          have laters := List.map_injective_iff.mpr (continuation_append_injective _) below
          rw [laters, induction behindDrawn behindDrawn' (List.append_cancel_left tail)]

/-! ## Whole trees -/

variable {α : Type} [SizeOf α] [Outlined α]

theorem induction_on_shown {Holds : α → Prop}
    (step : ∀ node, (∀ child ∈ shownChildren node, Holds child) → Holds node) (node : α) :
    Holds node :=
  step node fun child member =>
    have _smaller := sizeOf_lt_of_mem_shownChildren member
    induction_on_shown step child
termination_by sizeOf node

theorem lines_ne_nil (node : α) : lines node ≠ [] := by
  rw [lines_eq]
  exact List.cons_ne_nil _ _

/-! ## Lines -/

def IsLine (text : String) : Prop :=
  '\n' ∉ text.toList

theorem IsLine.append {front back : String} (left : IsLine front) (right : IsLine back) :
    IsLine (front ++ back) := by
  rw [IsLine, String.toList_append, List.mem_append, not_or]
  exact ⟨left, right⟩

theorem isLine_of_mem_hang {first further : String} (firstLine : IsLine first)
    (furtherLine : IsLine further) {drawn : List String} (level : ∀ line ∈ drawn, IsLine line) :
    ∀ line ∈ hang first further drawn, IsLine line := by
  cases drawn with
  | nil => exact List.forall_mem_nil _
  | cons line later =>
      rcases List.forall_mem_cons.mp level with ⟨head, tail⟩
      refine List.forall_mem_cons.mpr ⟨firstLine.append head, List.forall_mem_map.mpr ?_⟩
      exact fun line member => furtherLine.append (tail line member)

theorem isLine_of_mem_hangSiblings {siblings : List (List String)}
    (level : ∀ drawn ∈ siblings, ∀ line ∈ drawn, IsLine line) :
    ∀ line ∈ hangSiblings siblings, IsLine line := by
  have marks : ∀ text ∈ ["└── ", "    ", "├── ", "│   "], IsLine text := by
    simp [IsLine]
  fun_induction hangSiblings siblings with
  | case1 => exact List.forall_mem_nil _
  | case2 last =>
      exact isLine_of_mem_hang (marks _ (by simp)) (marks _ (by simp)) (level last (by simp))
  | case3 inner later _ induction =>
      rcases List.forall_mem_cons.mp level with ⟨head, tail⟩
      exact List.forall_mem_append.mpr
        ⟨isLine_of_mem_hang (marks _ (by simp)) (marks _ (by simp)) head, induction tail⟩

variable (level : ∀ node : α, IsLine (Outlined.label node))

include level

theorem isLine_of_mem_lines (node : α) : ∀ line ∈ lines node, IsLine line := by
  induction node using induction_on_shown with
  | step node induction =>
      rw [lines_eq]
      refine List.forall_mem_cons.mpr ⟨level node, isLine_of_mem_hangSiblings ?_⟩
      exact List.forall_mem_map.mpr induction

theorem outline_eq_iff_lines_eq {left right : α} :
    outline left = outline right ↔ lines left = lines right := by
  have split : ∀ node : α, (outline node).toList.splitOn '\n' = (lines node).map String.toList := by
    intro node
    rw [outline, reverse_draw_root, String.toList_intercalate]
    exact List.splitOn_intercalate '\n' (List.forall_mem_map.mpr (isLine_of_mem_lines level node))
      (by simpa using lines_ne_nil node)
  constructor
  · intro same
    have texts : (lines left).map String.toList = (lines right).map String.toList := by
      rw [← split, ← split, same]
    exact List.map_injective_iff.mpr (fun _ _ => String.toList_inj.mp) texts
  · intro same
    rw [outline, outline, reverse_draw_root, reverse_draw_root, same]

end Outline

/-! ## Parse trees -/

namespace Token

open Outline

theorem title_inj {left right : Symbol} (same : left.title = right.title) : left = right := by
  revert same
  cases left <;> cases right <;> decide

theorem isLine_title (kind : Symbol) : IsLine kind.title := by
  cases kind <;> simp [IsLine, Symbol.title]

theorem quote_not_mem_title (kind : Symbol) : '"' ∉ kind.title.toList := by
  cases kind <;> simp [Symbol.title]

theorem isLine_label (token : Token) : IsLine token.label := by
  cases token with
  | leaf kind text =>
      have opening : IsLine " (" := by simp [IsLine]
      have closing : IsLine ")" := by simp [IsLine]
      exact (((isLine_title kind).append opening).append
        (Text.lineFeed_not_mem_quoteText text)).append closing
  | node kind => exact isLine_title kind

variable {kind kind' : Symbol} {text text' : String} {children children' : List Token}
  {span span' : Span} {next next' : Option Lookahead}

theorem toList_label_leaf :
    (leaf kind text span next).label.toList =
      (kind.title.toList ++ " (".toList) ++ ((Text.quoteText text).toList ++ [')']) := by
  simp only [label, String.toList_append, List.append_assoc]
  rfl

theorem quote_not_mem_front (kind : Symbol) : '"' ∉ kind.title.toList ++ " (".toList := by
  have free := quote_not_mem_title kind
  simp [free]

theorem label_leaf_inj (same : (leaf kind text span next).label =
    (leaf kind' text' span' next').label) : kind = kind' ∧ text = text' := by
  have characters := congrArg String.toList same
  rw [toList_label_leaf, toList_label_leaf] at characters
  obtain ⟨fronts, quotations⟩ := Text.append_quoteText_inj (quote_not_mem_front kind)
    (quote_not_mem_front kind') characters
  have titles := String.toList_inj.mp (List.append_cancel_right fronts)
  have quotations := String.toList_inj.mp (List.append_cancel_right quotations)
  exact ⟨title_inj titles, Text.quoteText_inj quotations⟩

theorem label_leaf_ne_label_node :
    (leaf kind text span next).label ≠ (node kind' children span' next').label := by
  intro same
  apply quote_not_mem_title kind'
  have characters : (leaf kind text span next).label.toList = kind'.title.toList :=
    congrArg String.toList same
  rw [← characters, toList_label_leaf, Text.toList_quoteText]
  simp [Text.Quote.mark]

theorem shownChildren_eq (token : Token) : shownChildren token = token.children := by
  cases token <;> rfl

theorem lines_token (token : Token) :
    lines token = token.label :: hangSiblings (token.children.map lines) := by
  rw [lines_eq, shownChildren_eq]
  rfl

theorem induction_on_children {Holds : Token → Prop}
    (step : ∀ token, (∀ child ∈ token.children, Holds child) → Holds token) (token : Token) :
    Holds token :=
  induction_on_shown (fun token below => step token (shownChildren_eq token ▸ below)) token

theorem nil_not_mem_map_lines (tokens : List Token) : [] ∉ tokens.map lines := by
  intro member
  rcases List.mem_map.mp member with ⟨token, _, empty⟩
  exact lines_ne_nil token empty

theorem lines_eq_iff (left right : Token) :
    lines left = lines right ↔
      left.label = right.label ∧ left.children.map lines = right.children.map lines := by
  rw [lines_token, lines_token, List.cons.injEq]
  refine and_congr_right fun _ => ⟨?_, congrArg hangSiblings⟩
  exact hangSiblings_inj (nil_not_mem_map_lines _) (nil_not_mem_map_lines _)

theorem forall₂_alike_iff {left right : List Token}
    (told : ∀ token ∈ left, ∀ other, token.Alike other ↔ lines token = lines other) :
    List.Forall₂ Alike left right ↔ left.map lines = right.map lines := by
  induction left generalizing right with
  | nil => cases right <;> simp
  | cons first later induction =>
      cases right with
      | nil => simp
      | cons first' later' =>
          rcases List.forall_mem_cons.mp told with ⟨firstTold, laterTold⟩
          rw [List.forall₂_cons, List.map_cons, List.map_cons, List.cons.injEq,
            firstTold first', induction laterTold]

theorem alike_iff_lines_eq (left : Token) :
    ∀ right : Token, left.Alike right ↔ lines left = lines right := by
  induction left using induction_on_children with
  | step left induction =>
      intro right
      rw [lines_eq_iff, ← forall₂_alike_iff induction]
      constructor
      · intro alike
        cases alike with
        | leaf => exact ⟨rfl, .nil⟩
        | node parts => exact ⟨rfl, parts⟩
      · rintro ⟨labels, parts⟩
        cases left with
        | leaf =>
            cases right with
            | leaf =>
                rcases label_leaf_inj labels with ⟨rfl, rfl⟩
                exact .leaf
            | node => exact absurd labels label_leaf_ne_label_node
        | node =>
            cases right with
            | leaf => exact absurd labels.symm label_leaf_ne_label_node
            | node =>
                rcases title_inj labels with rfl
                exact .node parts

/-- Parse trees have the same outline exactly if they are alike. -/
theorem outline_eq_iff_alike (left right : Token) :
    outline left = outline right ↔ left.Alike right := by
  rw [alike_iff_lines_eq]
  exact outline_eq_iff_lines_eq isLine_label

end Token

end Stencil
