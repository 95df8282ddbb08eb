import Stencil.Outline
import Stencil.Span
import Stencil.Symbol
import Stencil.Text.Quoted

/-!
# Tokens and parse trees

A token is a piece of source text with its kind, or a phrase built from other tokens. A parse tree
is therefore a token too. Every token knows the kind of the token that follows it in the input, as
far as anyone has said so.

Parse trees nest once for every element of a template, so the functions that visit a whole tree keep
a list of the tokens they still have to visit.
-/

namespace Stencil

/-- The token that comes next in the input: its position, counted from zero, and its kind. -/
structure Lookahead where
  index : Nat
  symbol : Symbol
deriving DecidableEq

/-- A leaf, which is a piece of source text, or a node, which is a phrase that consists of other
tokens. -/
inductive Token where
  | leaf (kind : Symbol) (text : String) (span : Span) (lookahead : Option Lookahead)
  | node (kind : Symbol) (children : List Token) (span : Span) (lookahead : Option Lookahead)

namespace Token

mutual

def decEq : (left right : Token) → Decidable (left = right)
  | leaf kind text span lookahead, leaf kind' text' span' lookahead' =>
    if same : kind = kind' ∧ text = text' ∧ span = span' ∧ lookahead = lookahead' then
      isTrue (by simp [same])
    else isFalse (by simpa using same)
  | node kind children span lookahead, node kind' children' span' lookahead' =>
    if same : kind = kind' ∧ span = span' ∧ lookahead = lookahead' then
      match decEqList children children' with
      | isTrue equal => isTrue (by simp [same, equal])
      | isFalse different => isFalse (by simp [different])
    else isFalse (by simpa using fun first _ third fourth => same ⟨first, third, fourth⟩)
  | leaf .., node .. => isFalse (by simp)
  | node .., leaf .. => isFalse (by simp)

def decEqList : (left right : List Token) → Decidable (left = right)
  | [], [] => isTrue rfl
  | [], _ :: _ => isFalse (by simp)
  | _ :: _, [] => isFalse (by simp)
  | first :: later, first' :: later' =>
    match decEq first first', decEqList later later' with
    | isTrue head, isTrue tail => isTrue (by rw [head, tail])
    | isFalse different, _ => isFalse (by simp [different])
    | _, isFalse different => isFalse (by simp [different])

end

instance : DecidableEq Token :=
  decEq

def kind : Token → Symbol
  | leaf kind .. | node kind .. => kind

def span : Token → Span
  | leaf _ _ span _ | node _ _ span _ => span

def lookahead : Token → Option Lookahead
  | leaf _ _ _ lookahead | node _ _ _ lookahead => lookahead

def withLookahead (token : Token) (lookahead : Option Lookahead) : Token :=
  match token with
  | leaf kind text span _ => leaf kind text span lookahead
  | node kind children span _ => node kind children span lookahead

def isLeaf : Token → Bool
  | leaf .. => true
  | node .. => false

def text? : Token → Option String
  | leaf _ text .. => some text
  | node .. => none

/-- The tokens that a phrase consists of; a leaf consists of none. -/
def children : Token → List Token
  | leaf .. => []
  | node _ children .. => children

/-- The phrase that consists of the given tokens. It covers them from the first to the last and is
followed by what follows the last. A phrase of no tokens comes from nowhere. -/
def ofChildren (kind : Symbol) (children : List Token) : Token :=
  match children.head?, children.getLast? with
  | some first, some last => node kind children (first.span.cover last.span) last.lookahead
  | _, _ => node kind children .nowhere none

def ofChildren? (kind : Symbol) (children : List Token) : Option Token :=
  if children.isEmpty then none else some (ofChildren kind children)

/-- Makes every token of an input know its successor. The last token has none. -/
def link (tokens : List Token) : List Token :=
  let successors := (tokens.drop 1).map (some ·.kind) ++ [none]
  List.zipWith
    (fun (token, index) successor => token.withLookahead (successor.map (⟨index, ·⟩)))
    (tokens.zipIdx 1) successors

def label : Token → String
  | leaf kind text .. => kind.title ++ " (" ++ Text.quoteText text ++ ")"
  | node kind .. => kind.title

/-! ## Visiting a whole tree -/

theorem sum_sizeOf_le (tokens : List Token) : sizes tokens ≤ sizeOf tokens := by
  induction tokens with
  | nil => simp
  | cons token later induction =>
    simp only [sizes_cons, List.cons.sizeOf_spec]
    omega

theorem sum_sizeOf_children_lt (token : Token) : sizes token.children < sizeOf token := by
  cases token with
  | leaf =>
    simp only [children, sizes_nil, leaf.sizeOf_spec]
    omega
  | node kind children =>
    have := sum_sizeOf_le children
    simp only [Token.children, node.sizeOf_spec]
    omega

instance : Outlined Token where
  label := label
  isLeaf := isLeaf
  children := children
  sum_sizeOf_children_lt := sum_sizeOf_children_lt

/-- Visits the pending tokens and everything below them, each phrase before its children, and puts
them in front of what has been visited, the latest first. -/
def visit (pending visited : List (Nat × Token)) : List (Nat × Token) :=
  match pending with
  | [] => visited
  | (depth, token) :: later =>
    visit (token.children.map (depth + 1, ·) ++ later) ((depth, token) :: visited)
termination_by sizes (pending.map Prod.snd)
decreasing_by
  have smaller := sum_sizeOf_children_lt token
  have nodes : (token.children.map (depth + 1, ·)).map Prod.snd = token.children := by
    simp [Function.comp_def]
  simp only [List.map_append, List.map_cons, sizes_append, sizes_cons, nodes]
  omega

def preorder (token : Token) : List (Nat × Token) :=
  (visit [(0, token)] []).reverse

def leafText (token : Token) : String :=
  String.join (token.preorder.filterMap fun entry => entry.2.text?)

end Token

end Stencil
