import Stencil.Log
import Stencil.Template.Piece

/-!
# From a parse tree to the pieces of a template

The parse tree of a template wraps every element in phrases and nests once for each element. Only
the flat row of elements matters for rendering. The tree may come from anywhere, so its shape is
checked on the way.
-/

namespace Stencil

inductive Shape where
  | endedSource
  | elements
  | oneOrTwoChildren
  | element
  | elementBody
  | fourChildren
  | leaf
deriving DecidableEq

def Shape.describe : Shape → String
  | endedSource => "Source ending in end of input"
  | elements => "Source (I)"
  | oneOrTwoChildren => "one or two children"
  | element => "Element"
  | elementBody => "Variable, text, newline or whitespace"
  | fourChildren => "four children with the name third"
  | leaf => "a leaf"

structure StructureError where
  kind : Symbol
  expected : Shape
deriving DecidableEq

def StructureError.message (error : StructureError) : String :=
  "Structural error: unexpected " ++ error.kind.title ++ ", expected " ++ error.expected.describe

namespace Piece

def misfit {α : Type} (token : Token) (expected : Shape) : Except StructureError α :=
  .error ⟨token.kind, expected⟩

def ofPlaceholder (token : Token) : Except StructureError Piece :=
  match token.children with
  | [_, _, name, _] =>
    if name.kind = .name then
      match name.text? with
      | some spelling => .ok (.placeholder spelling token.leafText)
      | none => misfit name .leaf
    else misfit token .fourChildren
  | _ => misfit token .fourChildren

def ofElementBody (token : Token) : Except StructureError Piece :=
  match token.kind with
  | .placeholder => ofPlaceholder token
  | .text | .newline =>
    match token.text? with
    | some content => .ok (.text content)
    | none => misfit token .leaf
  | .blanks => .ok (.text token.leafText)
  | _ => misfit token .elementBody

def ofElement (token : Token) : Except StructureError Piece :=
  match token.kind, token.children with
  | .element, [body] => ofElementBody body
  | _, _ => misfit token .element

/-- The pieces for a row of elements, behind the pieces made so far, the latest first. -/
def ofElements (row : Token) (made : List Piece) : Except StructureError (List Piece) :=
  if row.kind ≠ .elements then misfit row .elements
  else match row with
    | .node _ [element] _ _ => do
      let piece ← ofElement element
      .ok (piece :: made).reverse
    | .node _ [element, rest] _ _ => do
      let piece ← ofElement element
      ofElements rest (piece :: made)
    | row => misfit row .oneOrTwoChildren

def ofTree (tree : Token) : Attempt StructureError (List Piece) :=
  let pieces := match tree.kind, tree.children with
    | .source, [row, last] =>
      if last.kind = Symbol.endOfInput then ofElements row [] else misfit tree .endedSource
    | _, _ => misfit tree .endedSource
  match pieces with
  | .ok pieces => ⟨.ok pieces, [.lowered pieces.length]⟩
  | .error error => throw error

end Piece

end Stencil
