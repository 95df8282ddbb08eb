import Mathlib.Data.List.Basic
import Stencil.Proofs.Parse.Derivation
import Stencil.Proofs.TreeNodes

/-! # The texts at the leaves of a tree

The texts that a visit of a tree comes upon are those that plain recursion finds, so the text of a
phrase is that of its parts, one after the other.
-/

namespace Stencil

namespace Token

mutual

def texts : Token → List String
  | leaf _ text _ _ => [text]
  | node _ children _ _ => textsOf children

def textsOf : List Token → List String
  | [] => []
  | token :: later => token.texts ++ textsOf later

end

theorem textsOf_eq_flatMap (tokens : List Token) : textsOf tokens = tokens.flatMap texts := by
  induction tokens with
  | nil => rfl
  | cons token later induction => rw [textsOf, induction, List.flatMap_cons]

theorem texts_eq (token : Token) :
    token.texts = token.text?.toList ++ token.children.flatMap texts := by
  cases token with
  | leaf => rfl
  | node kind children => exact textsOf_eq_flatMap children

theorem leafText_eq (token : Token) : token.leafText = String.join token.texts := by
  rw [leafText, List.filterMap_eq_flatMap_toList, flatMap_preorder texts_eq]

theorem leafText_of_children {token child : Token} {later : List Token}
    (children : token.children = child :: later) :
    token.leafText = String.join ((child :: later).map leafText) := by
  have joined : ∀ tokens : List Token,
      String.join (tokens.flatMap texts) = String.join (tokens.map leafText) := by
    intro tokens
    induction tokens with
    | nil => rfl
    | cons first later induction =>
        rw [List.flatMap_cons, String.join_append, List.map_cons, String.join_cons, induction,
          leafText_eq]
  cases token with
  | leaf => cases children
  | node kind parts =>
      cases children
      rw [leafText_eq, texts_eq]
      exact joined (child :: later)

theorem text?_of_isLeaf {token : Token} (leaf : token.isLeaf = true) :
    token.text? = some (String.join token.texts) := by
  cases token with
  | leaf => simp [text?, texts, String.join]
  | node => cases leaf

theorem text?_eq_none {token : Token} (inner : ¬token.isLeaf = true) : token.text? = none := by
  cases token with
  | leaf => exact absurd rfl inner
  | node => rfl

theorem texts_ofChildren (kind : Symbol) (children : List Token) :
    (ofChildren kind children).texts = children.flatMap texts := by
  unfold ofChildren
  split <;> exact textsOf_eq_flatMap children

/-- What a token says apart from where it stands. -/
def content (token : Token) : Symbol × List String :=
  (token.kind, token.texts)

theorem content_withLookahead (token : Token) (lookahead : Option Lookahead) :
    (token.withLookahead lookahead).content = token.content := by
  cases token <;> rfl

end Token

theorem Derivation.Valid.texts_token {rules : List Rule} {derivation : Derivation}
    (valid : derivation.Valid rules) :
    derivation.token.texts = derivation.frontier.flatMap Token.texts := by
  induction valid with
  | read leaf =>
      rw [frontier, List.flatMap_singleton]
      rfl
  | @built index rule parts _ _ _ induction =>
      rw [token_built, frontier_built, Token.texts_ofChildren, List.flatMap_map,
        List.flatMap_assoc, List.flatMap_def, List.flatMap_def, List.map_congr_left induction]

end Stencil
