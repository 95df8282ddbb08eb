import Stencil.Outline
import Stencil.Text.Quoted

/-!
# Pieces of a template

What rendering has to know about a template is a flat list: stretches of text, and placeholders with
their names.
-/

namespace Stencil

inductive Piece where
  | text (content : String)
  /-- A placeholder: the name of its value, and the placeholder as the source has it. -/
  | placeholder (name marker : String)
deriving DecidableEq

namespace Piece

def name? : Piece → Option String
  | text _ => none
  | placeholder name _ => some name

def written : Piece → String
  | text content => content
  | placeholder _ marker => marker

def label : Piece → String
  | text content => "Text (" ++ Text.quoteText content ++ ")"
  | placeholder name _ => "Variable (" ++ name ++ ")"

end Piece

/-- A template as a tree of one level, for outlines. -/
inductive PieceTree where
  | source (pieces : List Piece)
  | single (piece : Piece)

namespace PieceTree

def label : PieceTree → String
  | source _ => "Source"
  | single piece => piece.label

def isLeaf : PieceTree → Bool
  | source _ => false
  | single _ => true

def children : PieceTree → List PieceTree
  | source pieces => pieces.map single
  | single _ => []

theorem sum_sizeOf_children_lt (tree : PieceTree) : sizes tree.children < sizeOf tree := by
  cases tree with
  | single =>
    simp only [children, sizes_nil, single.sizeOf_spec]
    omega
  | source pieces =>
    have general : ∀ pieces : List Piece, sizes (pieces.map single) ≤ sizeOf pieces := by
      intro pieces
      induction pieces with
      | nil => simp
      | cons first later induction =>
        simp only [List.map_cons, sizes_cons, single.sizeOf_spec, List.cons.sizeOf_spec]
        omega
    have := general pieces
    simp only [children, source.sizeOf_spec]
    omega

instance : Outlined PieceTree where
  label := label
  isLeaf := isLeaf
  children := children
  sum_sizeOf_children_lt := sum_sizeOf_children_lt

end PieceTree

end Stencil
