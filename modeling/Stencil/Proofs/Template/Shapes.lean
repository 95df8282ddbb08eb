import Stencil.Proofs.Attempts
import Stencil.Proofs.LeafTexts
import Stencil.Template.Lowering

/-! # Shapes of trees

The tree of a template is a root with a row of elements and an end. Any other tree is refused, for
the first token that cannot be what it is met as: the root comes first, then each link of the row,
its element with everything in it, and then the next link.
-/

namespace Stencil.Piece

/-! ## Trees of templates -/

inductive IsBody : Token → Prop
  | words {body : Token} (kind : body.kind = .text ∨ body.kind = .newline)
      (leaf : body.isLeaf = true) : IsBody body
  | blanks {body : Token} (kind : body.kind = .blanks) : IsBody body
  | placeholder {body opening dot name closing : Token} (kind : body.kind = .placeholder)
      (children : body.children = [opening, dot, name, closing]) (named : name.kind = .name)
      (leaf : name.isLeaf = true) : IsBody body

def IsElement (element : Token) : Prop :=
  element.kind = .element ∧ ∃ body, element.children = [body] ∧ IsBody body

/-- A row of elements with its length. Every link but the last has another one behind its element. -/
inductive IsRow : Token → Nat → Prop
  | last {row element : Token} (kind : row.kind = .elements) (children : row.children = [element])
      (first : IsElement element) : IsRow row 1
  | more {row element rest : Token} {length : Nat} (kind : row.kind = .elements)
      (children : row.children = [element, rest]) (first : IsElement element)
      (later : IsRow rest length) : IsRow row (length + 1)

def IsTemplate (tree row : Token) (length : Nat) : Prop :=
  tree.kind = .source ∧
    (∃ last, tree.children = [row, last] ∧ last.kind = .endOfInput) ∧ IsRow row length

/-! ## The way through a tree -/

/-- What a token of a tree is met as. -/
inductive Role where
  | root
  | link
  | element
  | body
  | name

structure Visit where
  role : Role
  token : Token

namespace Visit

/-- Whether a token can be what it is met as. What is below it is left for later visits. -/
def Fits : Visit → Prop
  | ⟨.root, tree⟩ =>
    tree.kind = .source ∧ ∃ row last, tree.children = [row, last] ∧ last.kind = .endOfInput
  | ⟨.link, row⟩ => row.kind = .elements ∧ (row.children.length = 1 ∨ row.children.length = 2)
  | ⟨.element, element⟩ => element.kind = .element ∧ element.children.length = 1
  | ⟨.body, body⟩ =>
    match body.kind with
    | .text | .newline => body.isLeaf = true
    | .blanks => True
    | .placeholder =>
      ∃ opening dot name closing, body.children = [opening, dot, name, closing] ∧ name.kind = .name
    | _ => False
  | ⟨.name, name⟩ => name.isLeaf = true

def expected : Visit → Shape
  | ⟨.root, _⟩ => .endedSource
  | ⟨.link, row⟩ => if row.kind = .elements then .oneOrTwoChildren else .elements
  | ⟨.element, _⟩ => .element
  | ⟨.body, body⟩ =>
    match body.kind with
    | .text | .newline => .leaf
    | .placeholder => .fourChildren
    | _ => .elementBody
  | ⟨.name, _⟩ => .leaf

def error (visit : Visit) : StructureError :=
  ⟨visit.token.kind, visit.expected⟩

end Visit

def bodyVisits (body : Token) : List Visit :=
  ⟨.body, body⟩ ::
    match body.kind, body.children with
    | .placeholder, [_, _, name, _] => [⟨.name, name⟩]
    | _, _ => []

def elementVisits (element : Token) : List Visit :=
  ⟨.element, element⟩ ::
    match element.children with
    | [body] => bodyVisits body
    | _ => []

def rowVisits (row : Token) : List Visit :=
  ⟨.link, row⟩ ::
    match row with
    | .node _ [element] _ _ => elementVisits element
    | .node _ [element, rest] _ _ => elementVisits element ++ rowVisits rest
    | _ => []

/-- The tokens that are met on the way from the root, in order. -/
def visits (tree : Token) : List Visit :=
  ⟨.root, tree⟩ ::
    match tree.children with
    | [row, _] => rowVisits row
    | _ => []

inductive FirstMisfit : List Visit → StructureError → Prop
  | here {visit : Visit} (later : List Visit) (misfit : ¬visit.Fits) :
      FirstMisfit (visit :: later) visit.error
  | later {visit : Visit} {later : List Visit} {error : StructureError} (fits : visit.Fits)
      (first : FirstMisfit later error) : FirstMisfit (visit :: later) error

namespace FirstMisfit

variable {front back : List Visit} {error other : StructureError}

theorem append (first : FirstMisfit front error) (back : List Visit) :
    FirstMisfit (front ++ back) error := by
  induction first with
  | here later misfit => exact .here (later ++ back) misfit
  | later fits _ induction => exact .later fits induction

theorem of_append (fits : ∀ visit ∈ front, visit.Fits) (first : FirstMisfit back error) :
    FirstMisfit (front ++ back) error := by
  induction front with
  | nil => exact first
  | cons visit later induction =>
      rcases List.forall_mem_cons.mp fits with ⟨head, tail⟩
      exact .later head (induction tail)

theorem not_fits (first : FirstMisfit front error) : ¬∀ visit ∈ front, visit.Fits := by
  intro fits
  induction first with
  | here later misfit => exact misfit (fits _ List.mem_cons_self)
  | later _ _ induction => exact induction (List.forall_mem_cons.mp fits).2

theorem unique (first : FirstMisfit front error) (second : FirstMisfit front other) :
    error = other := by
  induction first with
  | here later misfit =>
      cases second with
      | here => rfl
      | later fits => exact absurd fits misfit
  | later fits _ induction =>
      cases second with
      | here _ misfit => exact absurd fits misfit
      | later _ rest => exact induction rest

end FirstMisfit

/-! ## What a way comes to -/

variable {α β : Type}

/-- What visits come to: a result of which something is known if all of them fit, and else the error
for the first that does not. -/
def ComesTo (visits : List Visit) (known : α → Prop) : Except StructureError α → Prop
  | .ok value => (∀ visit ∈ visits, visit.Fits) ∧ known value
  | .error error => FirstMisfit visits error

namespace ComesTo

variable {visit : Visit} {front back : List Visit} {known : α → Prop} {next : β → Prop}
  {outcome : Except StructureError α}

theorem refused {role : Role} {token : Token} {shape : Shape}
    (unfit : ¬(Visit.mk role token).Fits) (expected : (Visit.mk role token).expected = shape)
    (later : List Visit) (known : α → Prop) :
    ComesTo (⟨role, token⟩ :: later) known (misfit token shape) := by
  subst expected
  exact .here later unfit

theorem cons (fits : visit.Fits) (comes : ComesTo back known outcome) :
    ComesTo (visit :: back) known outcome := by
  cases outcome with
  | ok value => exact ⟨List.forall_mem_cons.mpr ⟨fits, comes.1⟩, comes.2⟩
  | error error => exact .later fits comes

theorem imp {weaker : α → Prop} (comes : ComesTo front known outcome)
    (implies : ∀ value, known value → weaker value) : ComesTo front weaker outcome := by
  cases outcome with
  | ok value => exact ⟨comes.1, implies value comes.2⟩
  | error error => exact comes

theorem bind {step : α → Except StructureError β} (comes : ComesTo front known outcome)
    (continues : ∀ value, known value → ComesTo back next (step value)) :
    ComesTo (front ++ back) next (outcome >>= step) := by
  cases outcome with
  | error error => exact FirstMisfit.append comes back
  | ok value =>
      have rest := continues value comes.2
      change ComesTo (front ++ back) next (step value)
      cases stepped : step value with
      | error error =>
          rw [stepped] at rest
          exact rest.of_append comes.1
      | ok result =>
          rw [stepped] at rest
          exact ⟨List.forall_mem_append.mpr ⟨comes.1, rest.1⟩, rest.2⟩

end ComesTo

/-! ## Each level of a tree -/

variable {body element row tree : Token}

def Stands (shape : Token → Prop) (token : Token) (piece : Piece) : Prop :=
  shape token ∧ piece.written = token.leafText

theorem comesTo_ofPlaceholder (kind : body.kind = .placeholder) :
    ComesTo (bodyVisits body) (Stands IsBody body) (ofPlaceholder body) := by
  have fits : (Visit.mk .body body).Fits ↔ ∃ opening dot name closing,
      body.children = [opening, dot, name, closing] ∧ name.kind = .name := by
    rw [Visit.Fits, kind]
  have refuses : ¬(Visit.mk .body body).Fits →
      ComesTo (bodyVisits body) (Stands IsBody body) (misfit body .fourChildren) :=
    fun unfit => .refused unfit (by rw [Visit.expected, kind]) _ _
  unfold ofPlaceholder
  split
  case h_1 opening dot name closing children =>
    by_cases named : name.kind = .name
    · rw [if_pos named, bodyVisits, kind, children]
      refine .cons (fits.mpr ⟨opening, dot, name, closing, children, named⟩) ?_
      by_cases leaf : name.isLeaf = true
      · rw [Token.text?_of_isLeaf leaf]
        refine .cons leaf ⟨nofun, .placeholder kind children named leaf, rfl⟩
      · have unfit : ¬(Visit.mk .name name).Fits := leaf
        rw [Token.text?_eq_none leaf]
        exact .refused unfit rfl _ _
    · rw [if_neg named]
      apply refuses
      intro fit
      rcases fits.mp fit with ⟨_, _, _, _, same, other⟩
      rw [children] at same
      cases same
      exact named other
  case h_2 differ =>
    apply refuses
    intro fit
    rcases fits.mp fit with ⟨opening, dot, name, closing, children, _⟩
    exact differ opening dot name closing children

theorem comesTo_words (kind : body.kind = .text ∨ body.kind = .newline) :
    ComesTo (bodyVisits body) (Stands IsBody body) (ofElementBody body) := by
  cases body with
  | leaf symbol text span lookahead =>
      have written : text = (Token.leaf symbol text span lookahead).leafText := by
        have spelled : (Token.leaf symbol text span lookahead).text? = _ :=
          Token.text?_of_isLeaf rfl
        rw [Token.leafText_eq]
        exact Option.some.inj spelled
      rcases kind with same | same <;> cases same
      · exact .cons rfl ⟨nofun, .words (.inl rfl) rfl, written⟩
      · exact .cons rfl ⟨nofun, .words (.inr rfl) rfl, written⟩
  | node symbol children span lookahead =>
      have unfit (same : symbol = .text ∨ symbol = .newline) :
          ¬(Visit.mk .body (.node symbol children span lookahead)).Fits := by
        rcases same with rfl | rfl <;> exact nofun
      rcases kind with same | same <;> cases same
      · exact .refused (unfit (.inl rfl)) rfl _ _
      · exact .refused (unfit (.inr rfl)) rfl _ _

theorem comesTo_ofElementBody (body : Token) :
    ComesTo (bodyVisits body) (Stands IsBody body) (ofElementBody body) := by
  cases kind : body.kind with
  | text => exact comesTo_words (.inl kind)
  | newline => exact comesTo_words (.inr kind)
  | placeholder =>
      rw [ofElementBody, kind]
      exact comesTo_ofPlaceholder kind
  | blanks =>
      rw [ofElementBody, kind, bodyVisits, kind]
      refine .cons ?_ ⟨nofun, .blanks kind, rfl⟩
      rw [Visit.Fits, kind]
      trivial
  | _ =>
      have unfit : ¬(Visit.mk .body body).Fits := by
        rw [Visit.Fits, kind]
        exact id
      rw [ofElementBody, kind]
      exact .refused unfit (by rw [Visit.expected, kind]) _ _

theorem comesTo_ofElement (element : Token) :
    ComesTo (elementVisits element) (Stands IsElement element) (ofElement element) := by
  unfold ofElement
  split
  case h_1 body kind children =>
    rw [elementVisits, children]
    refine .cons ⟨kind, by rw [children]; rfl⟩ ((comesTo_ofElementBody body).imp ?_)
    intro piece stands
    refine ⟨⟨kind, body, children, stands.1⟩, ?_⟩
    rw [Token.leafText_of_children children]
    simpa using stands.2
  case h_2 differ =>
    refine .refused ?_ rfl _ _
    intro fit
    rcases fit with ⟨kind, length⟩
    rcases List.length_eq_one_iff.mp length with ⟨body, children⟩
    exact differ body kind children

def RowStands (row : Token) (made pieces : List Piece) : Prop :=
  ∃ own, pieces = made.reverse ++ own ∧ IsRow row own.length ∧
    String.join (own.map written) = row.leafText

theorem comesTo_ofElements (row : Token) (made : List Piece) :
    ComesTo (rowVisits row) (RowStands row made) (ofElements row made) := by
  fun_induction ofElements row made with
  | case1 row made differ =>
      have unfit : ¬(Visit.mk .link row).Fits := fun fit => differ fit.1
      unfold rowVisits
      exact .refused unfit (by rw [Visit.expected, if_neg differ]) _ _
  | case2 made kind element span lookahead same =>
      rcases not_ne_iff.mp same with rfl
      rw [rowVisits, ← List.append_nil (elementVisits element)]
      refine .cons ⟨rfl, .inl rfl⟩ ((comesTo_ofElement element).bind ?_)
      intro piece stands
      refine ⟨nofun, [piece], List.reverse_cons, .last rfl rfl stands.1, ?_⟩
      rw [Token.leafText_of_children rfl, List.map_singleton, List.map_singleton, stands.2]
  | case3 made kind element rest span lookahead same induction =>
      rcases not_ne_iff.mp same with rfl
      rw [rowVisits]
      refine .cons ⟨rfl, .inr rfl⟩ ((comesTo_ofElement element).bind ?_)
      intro piece stands
      refine (induction piece).imp ?_
      intro pieces rowStands
      rcases rowStands with ⟨own, rfl, shape, written⟩
      refine ⟨piece :: own, ?_, .more rfl rfl stands.1 shape, ?_⟩
      · rw [List.reverse_cons, List.append_assoc, List.singleton_append]
      · rw [Token.leafText_of_children rfl, List.map_cons, String.join_cons, written, stands.2,
          List.map_cons, List.map_singleton, String.join_cons, String.join_cons, String.join_nil,
          String.append_empty]
  | case4 made row single double same =>
      have unfit : ¬(Visit.mk .link row).Fits := by
        intro fit
        match row, fit.2 with
        | .leaf .., fits => simp [Token.children] at fits
        | .node kind [] span lookahead, fits => simp [Token.children] at fits
        | .node kind [element] span lookahead, _ => exact single kind element span lookahead rfl
        | .node kind [element, rest] span lookahead, _ =>
            exact double kind element rest span lookahead rfl
        | .node _ (_ :: _ :: _ :: _) _ _, fits => simp [Token.children] at fits
      unfold rowVisits
      exact .refused unfit (by rw [Visit.expected, if_pos (not_ne_iff.mp same)]) _ _

def TreeStands (tree : Token) (pieces : List Piece) : Prop :=
  ∃ row, IsTemplate tree row pieces.length ∧ String.join (pieces.map written) = row.leafText

theorem comesTo_ofTree (tree : Token) :
    ComesTo (visits tree) (TreeStands tree) (ofTree tree).value := by
  have refuses : ¬(Visit.mk .root tree).Fits →
      ComesTo (visits tree) (TreeStands tree) (misfit tree .endedSource) :=
    fun unfit => .refused unfit rfl _ _
  unfold ofTree
  split
  case h_1 row last kind children =>
    split
    case isTrue ends =>
      have comes : ComesTo (visits tree) (TreeStands tree) (ofElements row []) := by
        rw [visits, children]
        refine .cons ⟨kind, row, last, children, ends⟩ ((comesTo_ofElements row []).imp ?_)
        intro pieces rowStands
        rcases rowStands with ⟨own, rfl, shape, written⟩
        exact ⟨row, ⟨kind, ⟨last, children, ends⟩, shape⟩, written⟩
      generalize ofElements row [] = pieces at comes ⊢
      cases pieces with
      | ok pieces => exact comes
      | error error => exact comes
    case isFalse differ =>
      apply refuses
      intro fit
      rcases fit.2 with ⟨_, _, same, ends⟩
      rw [children] at same
      cases same
      exact differ ends
  case h_2 differ =>
    apply refuses
    intro fit
    rcases fit.2 with ⟨row, last, children, _⟩
    exact differ row last fit.1 children

/-! ## Which trees are taken -/

theorem IsBody.fits (shape : IsBody body) : ∀ visit ∈ bodyVisits body, visit.Fits := by
  cases shape with
  | words kind leaf =>
      rcases kind with same | same <;> rw [bodyVisits, same] <;>
        exact List.forall_mem_cons.mpr ⟨by rwa [Visit.Fits, same], nofun⟩
  | blanks kind =>
      rw [bodyVisits, kind]
      exact List.forall_mem_cons.mpr ⟨by rw [Visit.Fits, kind]; trivial, nofun⟩
  | @placeholder opening dot name closing kind children named leaf =>
      rw [bodyVisits, kind, children]
      refine List.forall_mem_cons.mpr ⟨?_, List.forall_mem_singleton.mpr leaf⟩
      rw [Visit.Fits, kind]
      exact ⟨opening, dot, name, closing, children, named⟩

theorem IsElement.fits (shape : IsElement element) :
    ∀ visit ∈ elementVisits element, visit.Fits := by
  rcases shape with ⟨kind, body, children, inner⟩
  rw [elementVisits, children]
  exact List.forall_mem_cons.mpr ⟨⟨kind, by rw [children]; rfl⟩, inner.fits⟩

theorem IsRow.fits {length : Nat} (shape : IsRow row length) :
    ∀ visit ∈ rowVisits row, visit.Fits := by
  induction shape with
  | @last row element kind children first =>
      cases row with
      | leaf => cases children
      | node symbol parts =>
          cases children
          rw [rowVisits]
          exact List.forall_mem_cons.mpr ⟨⟨kind, .inl rfl⟩, first.fits⟩
  | @more row element rest length kind children first _ induction =>
      cases row with
      | leaf => cases children
      | node symbol parts =>
          cases children
          rw [rowVisits]
          exact List.forall_mem_cons.mpr ⟨⟨kind, .inr rfl⟩,
            List.forall_mem_append.mpr ⟨first.fits, induction⟩⟩

theorem IsTemplate.fits {length : Nat} (shape : IsTemplate tree row length) :
    ∀ visit ∈ visits tree, visit.Fits := by
  rcases shape with ⟨kind, ⟨last, children, ends⟩, inner⟩
  rw [visits, children]
  exact List.forall_mem_cons.mpr ⟨⟨kind, row, last, children, ends⟩, inner.fits⟩

/-- What a tree comes to: it has pieces exactly if it is the tree of a template, as many as its row
has elements, and together they are written as the text of the row. Any other tree has the error for
the first token on the way from the root that does not fit. -/
theorem ofTree_account (tree : Token) :
    ((∃ pieces, (ofTree tree).value = .ok pieces) ↔ ∃ row length, IsTemplate tree row length) ∧
      (∀ pieces, (ofTree tree).value = .ok pieces →
        ∃ row, IsTemplate tree row pieces.length ∧
          String.join (pieces.map written) = row.leafText) ∧
      ∀ error, (ofTree tree).value = .error error ↔ FirstMisfit (visits tree) error := by
  have comes := comesTo_ofTree tree
  refine ⟨⟨?_, ?_⟩, ?_, ?_⟩
  · intro done
    rcases done with ⟨pieces, done⟩
    rw [done] at comes
    rcases comes.2 with ⟨row, shape, _⟩
    exact ⟨row, pieces.length, shape⟩
  · intro shaped
    rcases shaped with ⟨row, length, shape⟩
    cases outcome : (ofTree tree).value with
    | ok pieces => exact ⟨pieces, rfl⟩
    | error error =>
        rw [outcome] at comes
        exact absurd shape.fits comes.not_fits
  · intro pieces done
    rw [done] at comes
    exact comes.2
  · intro error
    constructor
    · intro failed
      rw [failed] at comes
      exact comes
    · intro first
      cases outcome : (ofTree tree).value with
      | ok pieces =>
          rw [outcome] at comes
          exact absurd comes.1 first.not_fits
      | error other =>
          rw [outcome] at comes
          exact congrArg Except.error (FirstMisfit.unique comes first)

end Stencil.Piece
