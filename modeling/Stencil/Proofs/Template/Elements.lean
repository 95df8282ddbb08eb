import Stencil.Proofs.LeafTexts
import Stencil.Proofs.Template.Decisions
import Stencil.Template.Lowering

/-! # Rows of elements

The derivations of a template are rows of elements. An element is a placeholder of four tokens or a
single token, and a row can be told from its tokens.
-/

namespace Stencil.Template

/-- What a template consists of, in tokens. -/
inductive Element where
  | placeholder (opening dot name closing : Token)
  | plain (token : Token)

def phrase (index : Nat) (parts : List Derivation)
    (numbered : index < rules.length := by decide) : Derivation :=
  .built index rules[index] parts

theorem valid_phrase {index : Nat} {parts : List Derivation} {numbered : index < rules.length}
    (kinds : parts.map Derivation.kind = rules[index].rhs)
    (valid : ∀ part ∈ parts, part.Valid rules) : (phrase index parts numbered).Valid rules :=
  .built (List.getElem?_eq_getElem numbered) kinds valid

theorem frontier_phrase {index : Nat} {parts : List Derivation}
    {numbered : index < rules.length} :
    (phrase index parts numbered).frontier = parts.flatMap Derivation.frontier :=
  Derivation.frontier_built _ _ _

namespace Element

def tokens : Element → List Token
  | placeholder opening dot name closing => [opening, dot, name, closing]
  | plain token => [token]

def WellKinded : Element → Prop
  | placeholder opening dot name closing =>
    opening.kind = .openBraces ∧ dot.kind = .dot ∧ name.kind = .name ∧ closing.kind = .closeBraces
  | plain token => token.kind = .text ∨ token.kind = .newline ∨ token.kind = .blank

def piece : Element → Piece
  | placeholder opening dot name closing =>
    .placeholder (String.join name.texts)
      (String.join ([opening, dot, name, closing].flatMap Token.texts))
  | plain token => .text (String.join token.texts)

def derivation : Element → Derivation
  | placeholder opening dot name closing =>
    phrase 3 [phrase 7 [.read opening, .read dot, .read name, .read closing]]
  | plain token =>
    if token.kind = .blank then phrase 6 [phrase 8 [.read token]]
    else if token.kind = .newline then phrase 5 [.read token]
    else phrase 4 [.read token]

theorem kind_derivation (element : Element) : element.derivation.kind = .element := by
  cases element with
  | placeholder => rfl
  | plain token =>
      rw [derivation]
      split
      · rfl
      · split <;> rfl

theorem frontier_derivation (element : Element) :
    element.derivation.frontier = element.tokens := by
  cases element with
  | placeholder => rfl
  | plain token =>
      rw [derivation]
      split
      · rfl
      · split <;> rfl

theorem valid_derivation {element : Element} (wellKinded : element.WellKinded) :
    element.derivation.Valid rules := by
  have read : ∀ tokens : List Token, ∀ part ∈ tokens.map Derivation.read, part.Valid rules := by
    intro tokens part member
    rcases List.mem_map.mp member with ⟨token, _, rfl⟩
    exact .read token
  cases element with
  | placeholder opening dot name closing =>
      rcases wellKinded with ⟨first, second, third, fourth⟩
      have inner :
          (phrase 7 [.read opening, .read dot, .read name, .read closing]).Valid rules := by
        refine valid_phrase ?_ (read [opening, dot, name, closing])
        simp only [List.map_cons, Derivation.kind, first, second, third, fourth]
        rfl
      exact valid_phrase rfl (List.forall_mem_singleton.mpr inner)
  | plain token =>
      have leaf : ∀ part ∈ [Derivation.read token], part.Valid rules := read [token]
      rw [derivation]
      rcases wellKinded with text | newline | blank
      · rw [if_neg (by simp [text]), if_neg (by simp [text])]
        exact valid_phrase (by simp [Derivation.kind, text, rules]) leaf
      · rw [if_neg (by simp [newline]), if_pos newline]
        exact valid_phrase (by simp [Derivation.kind, newline, rules]) leaf
      · rw [if_pos blank]
        have inner : (phrase 8 [.read token]).Valid rules :=
          valid_phrase (by simp [Derivation.kind, blank, rules]) leaf
        exact valid_phrase rfl (List.forall_mem_singleton.mpr inner)

end Element

/-! ## Rows -/

def row : Element → List Element → Derivation
  | only, [] => phrase 1 [only.derivation]
  | first, next :: later => phrase 2 [first.derivation, row next later]

def whole (first : Element) (later : List Element) (ending : Token) : Derivation :=
  phrase 0 [row first later, .read ending]

variable {first : Element} {later : List Element} {ending : Token}

theorem kind_row (first : Element) (later : List Element) : (row first later).kind = .elements := by
  cases later <;> rfl

theorem frontier_row (first : Element) (later : List Element) :
    (row first later).frontier = (first :: later).flatMap Element.tokens := by
  induction later generalizing first with
  | nil => simp [row, frontier_phrase, Element.frontier_derivation]
  | cons next later induction =>
      simp only [row, frontier_phrase, List.flatMap_cons, List.flatMap_nil, List.append_nil,
        induction, Element.frontier_derivation]

theorem valid_prepended {head tail : Derivation} (headValid : head.Valid rules)
    (headKind : head.kind = .element) (tailValid : tail.Valid rules)
    (tailKind : tail.kind = .elements) : (phrase 2 [head, tail]).Valid rules := by
  refine valid_phrase ?_ (List.forall_mem_cons.mpr
    ⟨headValid, List.forall_mem_singleton.mpr tailValid⟩)
  rw [List.map_cons, List.map_singleton, headKind, tailKind]
  rfl

theorem valid_row (wellKinded : ∀ element ∈ first :: later, element.WellKinded) :
    (row first later).Valid rules := by
  induction later generalizing first with
  | nil =>
      have valid := Element.valid_derivation (wellKinded first List.mem_cons_self)
      refine valid_phrase ?_ (List.forall_mem_singleton.mpr valid)
      rw [List.map_singleton, Element.kind_derivation]
      rfl
  | cons next later induction =>
      rcases List.forall_mem_cons.mp wellKinded with ⟨head, tail⟩
      exact valid_prepended (Element.valid_derivation head) first.kind_derivation
        (induction tail) (kind_row next later)

theorem derives_ended {elements : Derivation} (valid : elements.Valid rules)
    (kind : elements.kind = .elements) (ends : ending.kind = .endOfInput) :
    (phrase 0 [elements, .read ending]).Derives grammar (elements.frontier ++ [ending]) where
  valid := by
    refine valid_phrase ?_ (List.forall_mem_cons.mpr
      ⟨valid, List.forall_mem_singleton.mpr (.read ending)⟩)
    rw [List.map_cons, List.map_singleton, kind, Derivation.kind, ends]
    rfl
  kind_eq := rfl
  frontier_eq := by
    rw [frontier_phrase, List.flatMap_cons, List.flatMap_singleton]
    rfl

theorem derives_whole (wellKinded : ∀ element ∈ first :: later, element.WellKinded)
    (ends : ending.kind = .endOfInput) :
    (whole first later ending).Derives grammar
      ((first :: later).flatMap Element.tokens ++ [ending]) := by
  rw [← frontier_row]
  exact derives_ended (valid_row wellKinded) (kind_row first later) ends

/-! ## Blanks that are taken together -/

def rowFrom (head : Derivation) : List Element → Derivation
  | [] => phrase 1 [head]
  | next :: later => phrase 2 [head, row next later]

def joined (left right : Token) : Derivation :=
  phrase 6 [phrase 9 [.read left, phrase 8 [.read right]]]

theorem valid_rowFrom {head : Derivation} {later : List Element} (valid : head.Valid rules)
    (kind : head.kind = .element) (wellKinded : ∀ element ∈ later, element.WellKinded) :
    (rowFrom head later).Valid rules := by
  cases later with
  | nil =>
      refine valid_phrase ?_ (List.forall_mem_singleton.mpr valid)
      rw [List.map_singleton, kind]
      rfl
  | cons next later => exact valid_prepended valid kind (valid_row wellKinded) (kind_row _ _)

theorem frontier_rowFrom (head : Derivation) (later : List Element) :
    (rowFrom head later).frontier = head.frontier ++ later.flatMap Element.tokens := by
  cases later with
  | nil => simp [rowFrom, frontier_phrase]
  | cons next later => simp [rowFrom, frontier_phrase, frontier_row]

theorem kind_rowFrom (head : Derivation) (later : List Element) :
    (rowFrom head later).kind = .elements := by
  cases later <;> rfl

theorem valid_joined {left right : Token} (leftBlank : left.kind = .blank)
    (rightBlank : right.kind = .blank) : (joined left right).Valid rules := by
  have inner : (phrase 8 [.read right]).Valid rules :=
    valid_phrase (by simp [Derivation.kind, rightBlank, rules])
      (List.forall_mem_singleton.mpr (.read right))
  have outer : (phrase 9 [.read left, phrase 8 [.read right]]).Valid rules := by
    refine valid_phrase ?_ (List.forall_mem_cons.mpr
      ⟨.read left, List.forall_mem_singleton.mpr inner⟩)
    rw [List.map_cons, Derivation.kind, leftBlank]
    rfl
  exact valid_phrase rfl (List.forall_mem_singleton.mpr outer)

/-! ## Every derivation is a row -/

/-- The rules but the last one, which takes blanks together. -/
def separateRules : List Rule :=
  rules.take 9

theorem getElem?_separateRules {index : Nat} {rule : Rule} :
    separateRules[index]? = some rule ↔ index ≠ 9 ∧ rules[index]? = some rule := by
  rw [separateRules, List.getElem?_take]
  by_cases few : index < 9
  · rw [if_pos few, and_iff_right (Nat.ne_of_lt few)]
  · rw [if_neg few]
    refine iff_of_false nofun fun other => ?_
    have inside : index < 10 := (List.getElem?_eq_some_iff.mp other.2).1
    exact few (Nat.lt_of_le_of_ne (Nat.le_of_lt_succ inside) other.1)

/-- No blanks are taken together, and the tokens of the input that are used are tokens indeed. -/
structure Separate (derivation : Derivation) : Prop where
  valid : derivation.Valid separateRules
  terminal : ∀ token ∈ derivation.frontier, token.kind.isTerminal = true

namespace Separate

variable {derivation : Derivation}

theorem exists_read (separate : Separate derivation)
    (terminal : derivation.kind.isTerminal = true) :
    ∃ token, derivation = .read token ∧ token.kind = derivation.kind := by
  have unbuilt : ∀ rule ∈ separateRules, rule.lhs ≠ derivation.kind := by
    intro rule member same
    rw [← same, isTerminal_lhs rule (List.mem_of_mem_take member)] at terminal
    cases terminal
  rcases separate.valid.exists_eq_read unbuilt with ⟨token, rfl⟩
  exact ⟨token, rfl, rfl⟩

theorem exists_phrase (separate : Separate derivation)
    (unread : derivation.kind.isTerminal = false) :
    ∃ index parts, ∃ numbered : index < rules.length, derivation = phrase index parts numbered ∧
      index ≠ 9 ∧ rules[index].lhs = derivation.kind ∧
      parts.map Derivation.kind = rules[index].rhs ∧ ∀ part ∈ parts, Separate part := by
  rcases separate with ⟨valid, terminal⟩
  cases valid with
  | read token =>
      have read := terminal token (by simp [Derivation.frontier])
      rw [Derivation.kind, read] at unread
      cases unread
  | @built index rule parts numbered kinds valid =>
      rcases getElem?_separateRules.mp numbered with ⟨other, listed⟩
      rcases List.getElem?_eq_some_iff.mp listed with ⟨inside, rfl⟩
      refine ⟨index, parts, inside, rfl, other, rfl, kinds, ?_⟩
      intro part member
      refine ⟨valid part member, fun token used => terminal token ?_⟩
      rw [Derivation.frontier_built]
      exact List.mem_flatMap.mpr ⟨part, member, used⟩

theorem exists_placeholder (separate : Separate derivation) (kind : derivation.kind = .placeholder) :
    ∃ opening dot name closing, (Element.placeholder opening dot name closing).WellKinded ∧
      derivation = phrase 7 [.read opening, .read dot, .read name, .read closing] := by
  rcases separate.exists_phrase (by rw [kind]; rfl) with
    ⟨index, parts, numbered, rfl, _, lhs, kinds, inner⟩
  have only : ∀ index, (inside : index < rules.length) → rules[index].lhs = .placeholder →
      index = 7 := by decide
  rcases only index numbered (lhs.trans kind) with rfl
  have shown : parts.map Derivation.kind = [.openBraces, .dot, .name, .closeBraces] := kinds
  simp only [List.map_eq_cons_iff, List.map_eq_nil_iff] at shown
  rcases shown with ⟨opening, _, rfl, openingKind, dot, _, rfl, dotKind, name, _, rfl, nameKind,
    closing, _, rfl, closingKind, rfl⟩
  rcases (inner opening (by simp)).exists_read (by rw [openingKind]; rfl) with ⟨_, rfl, _⟩
  rcases (inner dot (by simp)).exists_read (by rw [dotKind]; rfl) with ⟨_, rfl, _⟩
  rcases (inner name (by simp)).exists_read (by rw [nameKind]; rfl) with ⟨_, rfl, _⟩
  rcases (inner closing (by simp)).exists_read (by rw [closingKind]; rfl) with ⟨_, rfl, _⟩
  exact ⟨_, _, _, _, ⟨openingKind, dotKind, nameKind, closingKind⟩, rfl⟩

theorem exists_blank (separate : Separate derivation) (kind : derivation.kind = .blanks) :
    ∃ token, token.kind = .blank ∧ derivation = phrase 8 [.read token] := by
  have only : ∀ index, (inside : index < rules.length) → index ≠ 9 →
      rules[index].lhs = .blanks → index = 8 := by decide
  rcases separate.exists_phrase (by rw [kind]; rfl) with
    ⟨index, parts, numbered, rfl, other, lhs, kinds, inner⟩
  rcases only index numbered other (lhs.trans kind) with rfl
  rcases List.map_eq_singleton_iff.mp kinds with ⟨body, rfl, same⟩
  rcases (inner body List.mem_cons_self).exists_read (by rw [same]; rfl) with ⟨token, rfl, _⟩
  exact ⟨token, same, rfl⟩

theorem exists_element (separate : Separate derivation) (kind : derivation.kind = .element) :
    ∃ element : Element, element.WellKinded ∧ derivation = element.derivation := by
  rcases separate.exists_phrase (by rw [kind]; rfl) with
    ⟨index, parts, numbered, rfl, _, lhs, kinds, inner⟩
  have only : ∀ index, (inside : index < rules.length) → rules[index].lhs = .element →
      index = 3 ∨ index = 4 ∨ index = 5 ∨ index = 6 := by decide
  rcases only index numbered (lhs.trans kind) with rfl | rfl | rfl | rfl <;>
    rcases List.map_eq_singleton_iff.mp kinds with ⟨body, rfl, same⟩ <;>
    have separateBody := inner body List.mem_cons_self
  case inl =>
      rcases separateBody.exists_placeholder same with ⟨_, _, _, _, wellKinded, rfl⟩
      exact ⟨_, wellKinded, rfl⟩
  case inr.inl =>
      rcases separateBody.exists_read (by rw [same]; rfl) with ⟨token, rfl, _⟩
      have text : token.kind = .text := same
      refine ⟨.plain token, .inl text, ?_⟩
      rw [Element.derivation, if_neg (by simp [text]), if_neg (by simp [text])]
  case inr.inr.inl =>
      rcases separateBody.exists_read (by rw [same]; rfl) with ⟨token, rfl, _⟩
      have newline : token.kind = .newline := same
      refine ⟨.plain token, .inr (.inl newline), ?_⟩
      rw [Element.derivation, if_neg (by simp [newline]), if_pos newline]
  case inr.inr.inr =>
      rcases separateBody.exists_blank same with ⟨token, blank, rfl⟩
      refine ⟨.plain token, .inr (.inr blank), ?_⟩
      rw [Element.derivation, if_pos blank]

theorem exists_row (separate : Separate derivation) (kind : derivation.kind = .elements) :
    ∃ first later, (∀ element ∈ first :: later, element.WellKinded) ∧
      derivation = row first later := by
  have only : ∀ index, (inside : index < rules.length) → rules[index].lhs = .elements →
      index = 1 ∨ index = 2 := by decide
  have valid := separate.valid
  induction valid with
  | read token =>
      rcases separate.exists_phrase (by rw [kind]; rfl) with ⟨_, _, _, impossible, _⟩
      cases impossible
  | @built index rule parts _ _ _ induction =>
      rcases separate.exists_phrase (by rw [kind]; rfl) with
        ⟨_, _, numbered, equal, _, lhs, kinds, inner⟩
      rcases Derivation.built.inj equal with ⟨rfl, rfl, rfl⟩
      rcases only index numbered (lhs.trans kind) with rfl | rfl
      · rcases List.map_eq_singleton_iff.mp kinds with ⟨single, rfl, same⟩
        rcases (inner single List.mem_cons_self).exists_element same with
          ⟨element, wellKinded, rfl⟩
        exact ⟨element, [], List.forall_mem_singleton.mpr wellKinded, rfl⟩
      · have shown : parts.map Derivation.kind = [.element, .elements] := kinds
        simp only [List.map_eq_cons_iff, List.map_eq_nil_iff] at shown
        rcases shown with ⟨head, _, rfl, headKind, tail, _, rfl, tailKind, rfl⟩
        rcases (inner head (by simp)).exists_element headKind with ⟨first, wellKinded, rfl⟩
        have tailSeparate := inner tail (by simp)
        rcases induction tail (by simp) tailSeparate tailKind with
          ⟨next, later, others, rfl⟩
        exact ⟨first, next :: later, List.forall_mem_cons.mpr ⟨wellKinded, others⟩, rfl⟩

theorem exists_whole (separate : Separate derivation) (kind : derivation.kind = .source) :
    ∃ first later ending, (∀ element ∈ first :: later, element.WellKinded) ∧
      ending.kind = .endOfInput ∧ derivation = whole first later ending := by
  have only : ∀ index, (inside : index < rules.length) → rules[index].lhs = .source →
      index = 0 := by decide
  rcases separate.exists_phrase (by rw [kind]; rfl) with
    ⟨index, parts, numbered, rfl, _, lhs, kinds, inner⟩
  rcases only index numbered (lhs.trans kind) with rfl
  have shown : parts.map Derivation.kind = [.elements, .endOfInput] := kinds
  simp only [List.map_eq_cons_iff, List.map_eq_nil_iff] at shown
  rcases shown with ⟨elements, _, rfl, elementsKind, last, _, rfl, lastKind, rfl⟩
  rcases (inner elements (by simp)).exists_row elementsKind with
    ⟨first, later, wellKinded, rfl⟩
  rcases (inner last (by simp)).exists_read (by rw [lastKind]; rfl) with ⟨ending, rfl, _⟩
  exact ⟨first, later, ending, wellKinded, lastKind, rfl⟩

end Separate

/-- The tokens of the input that a derivation uses are tokens indeed, and its blanks stand apart. -/
structure Plain (derivation : Derivation) : Prop where
  valid : derivation.Valid rules
  terminal : ∀ token ∈ derivation.frontier, token.kind.isTerminal = true
  apart : BlanksApart (derivation.frontier.map Token.kind)

namespace Plain

variable {derivation : Derivation}

theorem part {index : Nat} {rule : Rule} {parts : List Derivation} {part : Derivation}
    (plain : Plain (.built index rule parts)) (member : part ∈ parts) : Plain part := by
  rcases plain with ⟨valid, terminal, apart⟩
  rcases List.append_of_mem member with ⟨before, after, rfl⟩
  rw [Derivation.frontier_built, List.flatMap_append, List.flatMap_cons] at terminal apart
  cases valid with
  | built _ _ valid =>
      refine ⟨valid part member, ?_, ?_⟩
      · intro token used
        exact terminal token (by simp [used])
      · rw [List.map_append, List.map_append] at apart
        exact apart.right_of_append.left_of_append

theorem exists_frontier_eq_cons (plain : Plain derivation) (kind : derivation.kind = .blanks) :
    ∃ token later, derivation.frontier = token :: later ∧ token.kind = .blank := by
  have begins : ∀ rule ∈ rules, rule.lhs = .blanks → rule.rhs.head? = some .blank := by decide
  rcases plain with ⟨valid, terminal, _⟩
  cases valid with
  | read token =>
      have read := terminal token (by simp [Derivation.frontier])
      rw [show token.kind = .blanks from kind] at read
      cases read
  | @built index rule parts numbered kinds valid =>
      have head := begins rule (List.mem_of_getElem? numbered) kind
      rw [← kinds] at head
      rcases parts with _ | ⟨first, others⟩
      · cases head
      · have blank : first.kind = .blank := Option.some.inj head
        rcases exists_eq_read_of_terminal (valid first List.mem_cons_self)
          (by rw [blank]; rfl) with ⟨token, rfl⟩
        rw [Derivation.frontier_built]
        exact ⟨token, _, rfl, blank⟩

theorem index_ne {index : Nat} {rule : Rule} {parts : List Derivation}
    (plain : Plain (.built index rule parts)) : index ≠ 9 := by
  intro last
  subst last
  have inner : ∀ part ∈ parts, Plain part := fun _ member => plain.part member
  rcases plain with ⟨valid, _, apart⟩
  cases valid with
  | built numbered kinds valid =>
      cases numbered
      have shown : parts.map Derivation.kind = [.blank, .blanks] := kinds
      simp only [List.map_eq_cons_iff, List.map_eq_nil_iff] at shown
      rcases shown with ⟨left, _, rfl, leftKind, right, _, rfl, rightKind, rfl⟩
      rcases exists_eq_read_of_terminal (valid left (by simp)) (by rw [leftKind]; rfl) with
        ⟨first, rfl⟩
      rcases (inner right (by simp)).exists_frontier_eq_cons rightKind with
        ⟨second, later, begins, blank⟩
      rw [Derivation.frontier_built, List.flatMap_cons, List.flatMap_singleton, begins] at apart
      rcases List.IsChain.rel apart with differ | differ
      · exact differ leftKind
      · exact differ blank

theorem separate (plain : Plain derivation) : Separate derivation := by
  refine ⟨?_, plain.terminal⟩
  have valid := plain.valid
  induction valid with
  | read token => exact .read token
  | @built index rule parts numbered kinds _ induction =>
      refine .built (getElem?_separateRules.mpr ⟨plain.index_ne, numbered⟩) kinds ?_
      exact fun part member => induction part member (plain.part member)

end Plain

end Stencil.Template
