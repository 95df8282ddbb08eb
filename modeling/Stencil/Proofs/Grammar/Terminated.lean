import Stencil.Grammar.Basic

/-! # Grammars whose texts have a marked end

The end of the input is a symbol like others, and a grammar may use it in odd places. In a
terminated grammar it stands at the end of every complete text and nowhere else.
-/

namespace Stencil

theorem Rule.completesParse_iff {rule : Rule} {before : List Symbol} {last : Symbol}
    (split : rule.rhs = before ++ [last]) :
    rule.completesParse = true ↔ last = .endOfInput := by
  simp [completesParse, split]

namespace Grammar

/-- Rules build phrases, never tokens of the input. -/
def BuildsPhrases (grammar : Grammar) : Prop :=
  ∀ rule ∈ grammar.rules, rule.lhs.isTerminal = false

instance (grammar : Grammar) : Decidable grammar.BuildsPhrases :=
  inferInstanceAs (Decidable (∀ rule ∈ grammar.rules, rule.lhs.isTerminal = false))

theorem BuildsPhrases.start {grammar : Grammar} (phrases : grammar.BuildsPhrases) :
    grammar.start.isTerminal = false := by
  rcases Option.map_eq_some_iff.mp grammar.start_eq with ⟨rule, found, same⟩
  rw [← same]
  exact phrases rule (List.mem_of_find?_eq_some found)

structure Terminated (grammar : Grammar) : Prop where
  phrases : grammar.BuildsPhrases
  /-- The rules of the start symbol, and no others, end with the end of the input. -/
  completes : ∀ rule ∈ grammar.rules, rule.completesParse = true ↔ rule.lhs = grammar.start
  /-- The end of the input has no other place. -/
  inside : ∀ rule ∈ grammar.rules, .endOfInput ∉ rule.rhs.dropLast
  /-- A complete text is not a part of anything. -/
  unused : ∀ rule ∈ grammar.rules, grammar.start ∉ rule.rhs

instance (grammar : Grammar) : Decidable grammar.Terminated :=
  decidable_of_iff
    (grammar.BuildsPhrases ∧
      (∀ rule ∈ grammar.rules, rule.completesParse = true ↔ rule.lhs = grammar.start) ∧
      (∀ rule ∈ grammar.rules, .endOfInput ∉ rule.rhs.dropLast) ∧
      ∀ rule ∈ grammar.rules, grammar.start ∉ rule.rhs)
    ⟨fun ⟨phrases, completes, inside, unused⟩ => ⟨phrases, completes, inside, unused⟩,
      fun ⟨phrases, completes, inside, unused⟩ => ⟨phrases, completes, inside, unused⟩⟩

end Grammar

end Stencil
