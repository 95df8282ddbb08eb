import Stencil.Token

/-! # Tokens that know their successors

In a linked list every token names the kind of the next one, and the last token names none.
-/

namespace Stencil.Token

/-- Every token names the kind of its successor. -/
def Linked : List Token → Prop
  | [] => True
  | token :: later =>
    token.lookahead.map (·.symbol) = later.head?.map kind ∧ Linked later

instance decidableLinked : (tokens : List Token) → Decidable (Linked tokens)
  | [] => inferInstanceAs (Decidable True)
  | token :: later =>
    have := decidableLinked later
    inferInstanceAs (Decidable
      (token.lookahead.map (·.symbol) = later.head?.map kind ∧ Linked later))

theorem Linked.append_right {before after : List Token} (linked : Linked (before ++ after)) :
    Linked after := by
  induction before with
  | nil => exact linked
  | cons token later induction => exact induction linked.2

theorem Linked.getLast?_lookahead {before after : List Token} (linked : Linked (before ++ after))
    (nonempty : before ≠ []) :
    (before.getLast?.bind lookahead).map (·.symbol) = after.head?.map kind := by
  induction before with
  | nil => exact absurd rfl nonempty
  | cons token later induction =>
      cases later with
      | nil => simpa using linked.1
      | cons next rest =>
          rw [List.getLast?_cons_cons]
          exact induction linked.2 (List.cons_ne_nil next rest)

/-! ## Linking -/

def linkFrom (index : Nat) : List Token → List Token
  | [] => []
  | token :: later =>
    token.withLookahead (later.head?.map fun next => ⟨index, next.kind⟩) ::
      linkFrom (index + 1) later

theorem link_eq_linkFrom (tokens : List Token) : link tokens = linkFrom 1 tokens := by
  have general : ∀ (tokens : List Token) (index : Nat),
      List.zipWith
        (fun entry successor => entry.1.withLookahead (successor.map (⟨entry.2, ·⟩)))
        (tokens.zipIdx index) ((tokens.drop 1).map (some ·.kind) ++ [none]) =
        linkFrom index tokens := by
    intro tokens
    induction tokens with
    | nil => exact fun _ => rfl
    | cons token later induction =>
        intro index
        cases later with
        | nil => rfl
        | cons next more =>
            rw [linkFrom, ← induction (index + 1)]
            rfl
  exact general tokens 1

@[simp] theorem kind_withLookahead (token : Token) (lookahead : Option Lookahead) :
    (token.withLookahead lookahead).kind = token.kind := by
  cases token <;> rfl

@[simp] theorem lookahead_withLookahead (token : Token) (lookahead : Option Lookahead) :
    (token.withLookahead lookahead).lookahead = lookahead := by
  cases token <;> rfl

theorem head?_linkFrom (index : Nat) (tokens : List Token) :
    (linkFrom index tokens).head?.map kind = tokens.head?.map kind := by
  cases tokens <;> simp [linkFrom]

theorem lookahead_linkFrom {index : Nat} {tokens front back : List Token}
    (split : linkFrom (index + 1) tokens = front ++ back) (nonempty : front ≠ []) :
    front.getLast?.bind lookahead =
      back.head?.map fun next => ⟨index + front.length, next.kind⟩ := by
  induction tokens generalizing index front with
  | nil => exact absurd (List.append_eq_nil_iff.mp split.symm).1 nonempty
  | cons token later induction =>
      rcases List.exists_cons_of_ne_nil nonempty with ⟨first, more, rfl⟩
      rcases List.cons.inj split with ⟨rfl, rest⟩
      cases more with
      | nil =>
          rcases rest with rfl
          cases later <;> simp [linkFrom]
      | cons second others =>
          rw [List.getLast?_cons_cons, induction rest (List.cons_ne_nil _ _)]
          simp only [List.length_cons, Nat.add_assoc, Nat.add_comm 1]

theorem linked_link (tokens : List Token) : Linked (link tokens) := by
  have general : ∀ (tokens : List Token) (index : Nat), Linked (linkFrom index tokens) := by
    intro tokens
    induction tokens with
    | nil => exact fun _ => trivial
    | cons token later induction =>
        intro index
        refine ⟨?_, induction (index + 1)⟩
        rw [head?_linkFrom]
        cases later <;> simp
  rw [link_eq_linkFrom]
  exact general tokens 1

theorem map_link {α : Type} {view : Token → α}
    (keeps : ∀ token lookahead, view (token.withLookahead lookahead) = view token)
    (tokens : List Token) : (link tokens).map view = tokens.map view := by
  have general : ∀ (tokens : List Token) (index : Nat),
      (linkFrom index tokens).map view = tokens.map view := by
    intro tokens
    induction tokens with
    | nil => exact fun _ => rfl
    | cons token later induction =>
        intro index
        rw [linkFrom, List.map_cons, keeps, induction (index + 1), List.map_cons]
  rw [link_eq_linkFrom]
  exact general tokens 1

theorem forall_mem_link_iff {Holds : Token → Prop}
    (keeps : ∀ token lookahead, Holds (token.withLookahead lookahead) ↔ Holds token)
    {tokens : List Token} :
    (∀ token ∈ link tokens, Holds token) ↔ ∀ token ∈ tokens, Holds token := by
  have viewed (tokens : List Token) :
      (∀ token ∈ tokens, Holds token) ↔ ∀ holds ∈ tokens.map Holds, holds := by
    rw [List.forall_mem_map]
  rw [viewed, viewed, map_link fun token lookahead => propext (keeps token lookahead)]

theorem forall_mem_link {Holds : Token → Prop}
    (keeps : ∀ token lookahead, Holds (token.withLookahead lookahead) ↔ Holds token)
    {tokens : List Token} (holds : ∀ token ∈ tokens, Holds token) :
    ∀ token ∈ link tokens, Holds token :=
  (forall_mem_link_iff keeps).mpr holds

theorem exists_mem_link_iff {Holds : Token → Prop}
    (keeps : ∀ token lookahead, Holds (token.withLookahead lookahead) ↔ Holds token)
    {tokens : List Token} :
    (∃ token ∈ link tokens, Holds token) ↔ ∃ token ∈ tokens, Holds token := by
  have absent : (∀ token ∈ link tokens, ¬Holds token) ↔ ∀ token ∈ tokens, ¬Holds token :=
    forall_mem_link_iff fun token lookahead => not_congr (keeps token lookahead)
  simpa using not_congr absent

end Stencil.Token
