import Stencil.Token

/-! # The tokens of a tree

The visit of a tree keeps a list of what it still has to visit. What it gathers on its way is what
plain recursion gathers.
-/

namespace Stencil.Token

theorem flatMap_visit {α : Type} {own whole : Token → List α}
    (split : ∀ token, whole token = own token ++ token.children.flatMap whole)
    (pending visited : List (Nat × Token)) :
    (visit pending visited).reverse.flatMap (fun entry => own entry.2) =
      visited.reverse.flatMap (fun entry => own entry.2) ++
        pending.flatMap fun entry => whole entry.2 := by
  fun_induction visit pending visited with
  | case1 visited => rw [List.flatMap_nil, List.append_nil]
  | case2 visited depth token later induction =>
      rw [induction, List.flatMap_cons, split token, List.flatMap_append, List.flatMap_map,
        List.reverse_cons, List.flatMap_append, List.flatMap_singleton]
      simp only [List.append_assoc]

theorem flatMap_preorder {α : Type} {own whole : Token → List α}
    (split : ∀ token, whole token = own token ++ token.children.flatMap whole) (token : Token) :
    token.preorder.flatMap (fun entry => own entry.2) = whole token := by
  rw [preorder, flatMap_visit split]
  simp

mutual

/-- The tokens of a tree, each phrase before its children. -/
def nodes : Token → List Token
  | leaf kind text span lookahead => [leaf kind text span lookahead]
  | node kind children span lookahead => node kind children span lookahead :: nodesOf children

def nodesOf : List Token → List Token
  | [] => []
  | token :: later => token.nodes ++ nodesOf later

end

theorem nodesOf_eq_flatMap (tokens : List Token) : nodesOf tokens = tokens.flatMap nodes := by
  induction tokens with
  | nil => rfl
  | cons token later induction => rw [nodesOf, induction, List.flatMap_cons]

theorem nodes_eq (token : Token) : token.nodes = token :: token.children.flatMap nodes := by
  cases token with
  | leaf => rfl
  | node kind children => exact congrArg (List.cons _) (nodesOf_eq_flatMap children)

def leaves (token : Token) : List Token :=
  token.nodes.filter isLeaf

theorem nodes_of_isLeaf {token : Token} (leaf : token.isLeaf = true) : token.nodes = [token] := by
  cases token with
  | leaf => rfl
  | node => cases leaf

theorem leaves_of_isLeaf {token : Token} (leaf : token.isLeaf = true) : token.leaves = [token] := by
  rw [leaves, nodes_of_isLeaf leaf, List.filter_cons_of_pos leaf, List.filter_nil]

theorem children_ofChildren (kind : Symbol) (children : List Token) :
    (ofChildren kind children).children = children := by
  unfold ofChildren
  split <;> rfl

theorem isLeaf_ofChildren (kind : Symbol) (children : List Token) :
    (ofChildren kind children).isLeaf = false := by
  unfold ofChildren
  split <;> rfl

theorem nodes_ofChildren (kind : Symbol) (children : List Token) :
    (ofChildren kind children).nodes = ofChildren kind children :: children.flatMap nodes := by
  rw [nodes_eq, children_ofChildren]

theorem leaves_ofChildren (kind : Symbol) (children : List Token) :
    (ofChildren kind children).leaves = children.flatMap leaves := by
  have inner : ¬(ofChildren kind children).isLeaf = true := by simp [isLeaf_ofChildren]
  rw [leaves, nodes_ofChildren, List.filter_cons_of_neg inner, List.filter_flatMap]
  rfl

end Stencil.Token
