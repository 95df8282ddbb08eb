import Mathlib.Data.List.Chain
import Stencil.Proofs.Parse.Ambiguity

/-! # What the template table cannot decide

Two items that disagree rarely fit the same stack in front of the same token. In the template table
they do so only between two blanks, which may belong together or not.
-/

namespace Stencil

namespace Item

/-- Whether one stack may show both lists of symbols from the top down, if the phrase of the shorter
one has to start above what is left. -/
def mayShare (left right : SymbolSet) : List Symbol → List Symbol → Bool
  | [], [] => true
  | [], next :: _ => left.contains (some next)
  | next :: _, [] => right.contains (some next)
  | first :: deeper, first' :: deeper' => first = first' && mayShare left right deeper deeper'

theorem mayShare_of_append {left right : SymbolSet} {expected expected' below below' : List Symbol}
    (same : expected ++ below = expected' ++ below')
    (starts : left.contains below.head? = true) (starts' : right.contains below'.head? = true) :
    mayShare left right expected expected' = true := by
  induction expected generalizing expected' with
  | nil =>
      cases expected' with
      | nil => rfl
      | cons next deeper =>
          have shown : below = next :: (deeper ++ below') := same
          rw [shown] at starts
          exact starts
  | cons first deeper induction =>
      cases expected' with
      | nil =>
          have shown : below' = first :: (deeper ++ below) := same.symm
          rw [shown] at starts'
          exact starts'
      | cons first' deeper' =>
          rcases List.cons.inj same with ⟨rfl, later⟩
          simpa [mayShare] using induction later

def mayMeet (left right : Item) (lookahead : Option Symbol) : Bool :=
  left.lookaheads.contains lookahead && right.lookaheads.contains lookahead &&
    mayShare left.preceding right.preceding left.expected right.expected

theorem mayMeet_of_fits {left right : Item} {lookahead : Option Symbol} {kinds : List Symbol}
    (leftFits : left.Fits lookahead kinds) (rightFits : right.Fits lookahead kinds) :
    left.mayMeet right lookahead = true := by
  rcases leftFits with ⟨next, below, rfl, starts⟩
  rcases rightFits with ⟨next', below', same, starts'⟩
  simp [mayMeet, next, next', mayShare_of_append same starts starts']

end Item

namespace Template

open Stencil.Parser

def BlanksApart (kinds : List Symbol) : Prop :=
  kinds.IsChain fun left right => left ≠ .blank ∨ right ≠ .blank

instance (kinds : List Symbol) : Decidable (BlanksApart kinds) :=
  inferInstanceAs (Decidable (kinds.IsChain fun left right => left ≠ .blank ∨ right ≠ .blank))

/-- Items of the template table that may meet agree, except between two blanks. -/
theorem agree_of_mayMeet : ∀ symbol ∈ Symbol.all, ∀ left ∈ table.items.get symbol,
    ∀ right ∈ table.items.get symbol, ∀ lookahead ∈ none :: Symbol.all.map some,
      left.mayMeet right lookahead = true → left.action ≠ right.action →
      symbol = .blank ∧ lookahead = some .blank := by
  decide +kernel

theorem mem_lookaheads (lookahead : Option Symbol) :
    lookahead ∈ none :: Symbol.all.map some := by
  cases lookahead with
  | none => exact List.mem_cons_self
  | some symbol => simp [Symbol.mem_all]

theorem between_blanks_of_torn {state : State} (torn : Table.Torn table state) :
    ∃ top below, state.stack = top :: below ∧ top.kind = .blank ∧
      state.lookahead = some .blank := by
  rcases torn with ⟨top, below, stack, left, leftMember, right, rightMember, leftFits, rightFits,
    differ⟩
  exact ⟨top, below, stack, agree_of_mayMeet top.kind top.kind.mem_all left leftMember right
    rightMember state.lookahead (mem_lookaheads _) (Item.mayMeet_of_fits leftFits rightFits) differ⟩

theorem isTerminal_lhs : ∀ rule ∈ rules, rule.lhs.isTerminal = false := by
  decide

theorem exists_eq_read_of_terminal {derivation : Derivation} (valid : derivation.Valid rules)
    (terminal : derivation.kind.isTerminal = true) : ∃ token, derivation = .read token := by
  apply valid.exists_eq_read
  intro rule member same
  rw [← same, isTerminal_lhs rule member] at terminal
  cases terminal

theorem not_conflicts {first : Token} {rest : List Token}
    (linked : Token.Linked (first :: rest))
    (apart : BlanksApart ((first :: rest).map Token.kind)) :
    ¬Table.Conflicts table (State.initial first rest) := by
  intro conflicts
  rcases conflicts with ⟨last, reaches, torn⟩
  have traces := (Table.Traces.initial grammar first rest).reach reaches
  rcases between_blanks_of_torn torn with ⟨top, below, stack, blank, next⟩
  have nonempty : last.stack ≠ [] := by simp [stack]
  rw [traces.lookahead_eq linked nonempty] at next
  rcases last with ⟨_, input⟩
  cases stack
  have terminal : top.kind.isTerminal = true := by rw [blank]; rfl
  rcases exists_eq_read_of_terminal (traces.valid top List.mem_cons_self) terminal with
    ⟨token, rfl⟩
  match input, next with
  | follower :: later, next =>
      have spelled := traces.spelled
      simp only [List.reverse_cons, List.flatMap_append, List.flatMap_singleton,
        Derivation.frontier, List.append_assoc, List.cons_append, List.nil_append] at spelled
      rw [← spelled, List.map_append, List.map_cons, List.map_cons] at apart
      have differ := apart.right_of_append.rel
      rcases differ with differ | differ
      · exact differ blank
      · exact differ (Option.some.inj next)

theorem terminated_grammar : grammar.Terminated := by
  decide

theorem parse_of_derives {derivation : Derivation} {tokens : List Token}
    (derives : derivation.Derives grammar tokens)
    (terminal : ∀ token ∈ tokens, token.kind.isTerminal = true) (linked : Token.Linked tokens)
    (apart : BlanksApart (tokens.map Token.kind)) (trailing : TrailingPolicy) :
    (table.parse trailing tokens).value = .ok derivation.token := by
  match tokens with
  | [] => exact absurd derives.frontier_eq derives.valid.frontier_ne_nil
  | first :: rest =>
      rcases Table.accepts_or_conflicts terminated_grammar derives terminal linked with
        ⟨last, reaches, accepts⟩ | conflicts
      · exact parse_eq_of_accepts (Table.restores table)
          (Table.run_ne_endless terminated_grammar.phrases first rest) reaches accepts
          derives.kind_eq trailing
      · exact absurd conflicts (not_conflicts linked apart)

end Template

end Stencil
