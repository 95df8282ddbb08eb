import Stencil.Grammar.Basic
import Stencil.Token

/-! # Derivations

A derivation tells how a token came about: it was read from the input, or a rule built it from
parts. It says more than the token does, since two rules may build tokens that look the same, and
since a token of the input may itself be a phrase.
-/

namespace Stencil

inductive Derivation where
  | read (token : Token)
  | built (index : Nat) (rule : Rule) (parts : List Derivation)

namespace Derivation

def spelled (index : Nat) (lhs first : Symbol) (later : List Symbol) (parts : List Derivation) :
    Derivation :=
  .built index ⟨lhs, first :: later, List.cons_ne_nil first later⟩ parts

def kind : Derivation → Symbol
  | read token => token.kind
  | built _ rule _ => rule.lhs

@[simp] theorem kind_built (index : Nat) (rule : Rule) (parts : List Derivation) :
    (built index rule parts).kind = rule.lhs := rfl

mutual

def token : Derivation → Token
  | read token => token
  | built _ rule parts => .ofChildren rule.lhs (tokens parts)

def tokens : List Derivation → List Token
  | [] => []
  | part :: later => part.token :: tokens later

end

mutual

/-- The tokens of the input that the derivation uses, from left to right. -/
def frontier : Derivation → List Token
  | read token => [token]
  | built _ _ parts => frontiers parts

def frontiers : List Derivation → List Token
  | [] => []
  | part :: later => part.frontier ++ frontiers later

end

/-- Every part that was built was built by a rule of the list, from tokens of exactly the kinds on
the right-hand side of that rule. -/
inductive Valid (rules : List Rule) : Derivation → Prop
  | read (token : Token) : Valid rules (.read token)
  | built {index : Nat} {rule : Rule} {parts : List Derivation}
      (numbered : rules[index]? = some rule) (kinds : parts.map kind = rule.rhs)
      (valid : ∀ part ∈ parts, Valid rules part) : Valid rules (.built index rule parts)

mutual

def decideValid (rules : List Rule) : (derivation : Derivation) → Decidable (Valid rules derivation)
  | read token => isTrue (.read token)
  | built index rule parts =>
    match decideAllValid rules parts with
    | isTrue valid =>
      if fitting : rules[index]? = some rule ∧ parts.map kind = rule.rhs then
        isTrue (.built fitting.1 fitting.2 valid)
      else isFalse fun | .built numbered kinds _ => fitting ⟨numbered, kinds⟩
    | isFalse invalid => isFalse fun | .built _ _ valid => invalid valid

def decideAllValid (rules : List Rule) :
    (parts : List Derivation) → Decidable (∀ part ∈ parts, Valid rules part)
  | [] => isTrue nofun
  | part :: later =>
    match decideValid rules part, decideAllValid rules later with
    | isTrue head, isTrue tail => isTrue (List.forall_mem_cons.mpr ⟨head, tail⟩)
    | isFalse invalid, _ => isFalse fun all => invalid (all part List.mem_cons_self)
    | _, isFalse invalid => isFalse fun all => invalid (List.forall_mem_cons.mp all).2

end

instance (rules : List Rule) (derivation : Derivation) : Decidable (Valid rules derivation) :=
  decideValid rules derivation

/-- A derivation of a whole input from the start symbol. -/
structure Derives (derivation : Derivation) (grammar : Grammar) (input : List Token) : Prop where
  valid : derivation.Valid grammar.rules
  kind_eq : derivation.kind = grammar.start
  frontier_eq : derivation.frontier = input

instance (derivation : Derivation) (grammar : Grammar) (input : List Token) :
    Decidable (derivation.Derives grammar input) :=
  decidable_of_iff
    (derivation.Valid grammar.rules ∧ derivation.kind = grammar.start ∧
      derivation.frontier = input)
    ⟨fun ⟨valid, kind, frontier⟩ => ⟨valid, kind, frontier⟩,
      fun ⟨valid, kind, frontier⟩ => ⟨valid, kind, frontier⟩⟩

/-! ## Tokens and frontiers -/

theorem tokens_eq_map (parts : List Derivation) : tokens parts = parts.map token := by
  induction parts with
  | nil => rfl
  | cons part later induction => rw [tokens, induction, List.map_cons]

theorem frontiers_eq_flatMap (parts : List Derivation) :
    frontiers parts = parts.flatMap frontier := by
  induction parts with
  | nil => rfl
  | cons part later induction => rw [frontiers, induction, List.flatMap_cons]

theorem token_built (index : Nat) (rule : Rule) (parts : List Derivation) :
    (built index rule parts).token = .ofChildren rule.lhs (parts.map token) := by
  rw [token, tokens_eq_map]

theorem frontier_built (index : Nat) (rule : Rule) (parts : List Derivation) :
    (built index rule parts).frontier = parts.flatMap frontier := by
  rw [frontier, frontiers_eq_flatMap]

end Derivation

theorem Token.kind_ofChildren (kind : Symbol) (children : List Token) :
    (ofChildren kind children).kind = kind := by
  unfold ofChildren
  split <;> rfl

theorem Token.lookahead_ofChildren (kind : Symbol) (children : List Token) :
    (ofChildren kind children).lookahead = children.getLast?.bind lookahead := by
  unfold ofChildren
  split
  · rename_i last
    rw [last]
    rfl
  · rename_i missing
    cases children with
    | nil => rfl
    | cons first later =>
        exact absurd (List.getLast?_eq_some_getLast (List.cons_ne_nil first later))
          (missing first _ rfl)

namespace Derivation

theorem kind_token (derivation : Derivation) : derivation.token.kind = derivation.kind := by
  cases derivation with
  | read token => rfl
  | built index rule parts => exact Token.kind_ofChildren _ _

theorem map_kind_token (derivations : List Derivation) :
    (derivations.map token).map Token.kind = derivations.map kind := by
  simp [kind_token]

variable {rules : List Rule}

theorem Valid.exists_eq_read {derivation : Derivation} (valid : derivation.Valid rules)
    (unbuilt : ∀ rule ∈ rules, rule.lhs ≠ derivation.kind) : ∃ token, derivation = .read token := by
  cases valid with
  | read token => exact ⟨token, rfl⟩
  | built numbered _ _ => exact absurd rfl (unbuilt _ (List.mem_of_getElem? numbered))

theorem Valid.frontier_ne_nil {derivation : Derivation} (valid : derivation.Valid rules) :
    derivation.frontier ≠ [] := by
  induction valid with
  | read token => exact List.cons_ne_nil _ _
  | @built index rule parts _ kinds _ induction =>
      cases parts with
      | nil => exact absurd kinds.symm rule.rhs_ne_nil
      | cons first later =>
          rw [frontier_built, List.flatMap_cons]
          intro empty
          exact induction first (by simp) (List.append_eq_nil_iff.mp empty).1

theorem Valid.lookahead_token {derivation : Derivation} (valid : derivation.Valid rules) :
    derivation.token.lookahead = derivation.frontier.getLast?.bind Token.lookahead := by
  induction valid with
  | read token => rfl
  | @built index rule parts _ kinds valid induction =>
      have nonempty : parts ≠ [] := by
        intro empty
        rw [empty] at kinds
        exact rule.rhs_ne_nil kinds.symm
      obtain ⟨front, last, rfl⟩ : ∃ front last, parts = front ++ [last] :=
        ⟨parts.dropLast, parts.getLast nonempty, (List.dropLast_concat_getLast nonempty).symm⟩
      have lastNonempty := (valid last (by simp)).frontier_ne_nil
      rw [token_built, Token.lookahead_ofChildren, frontier_built]
      have lastToken := List.getLast?_eq_some_getLast lastNonempty
      have lastInduction := induction last (by simp)
      rw [lastToken] at lastInduction
      simp [List.getLast?_append, lastToken, lastInduction]

end Derivation

end Stencil
