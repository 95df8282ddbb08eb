import Stencil.Proofs.Parse.Unreduced
import Stencil.Proofs.TreeNodes

/-! # Looking without touching

To decide and to reduce, a parser pops elements that it may not keep. A decision puts all of them
back, however deep it looked, and so does a reduction that fails. Only a reduction that succeeds
changes the stack, and it changes nothing below the elements that it takes.
-/

namespace Stencil

namespace Parser

variable {parser : Parser} {configuration next : Configuration}

/-- A stack without pending pops can be seen as read from the input, whatever lies on it. -/
theorem configuration_map_read (elements input : List Token) :
    State.configuration ⟨elements.map .read, input⟩ = ⟨⟨elements, []⟩, input⟩ := by
  simp [State.configuration, Function.comp_def, Derivation.token]

theorem popped_of_stepsTo (restores : parser.Restores) (settled : configuration.stack.popped = [])
    (steps : parser.StepsTo configuration next) : next.stack.popped = [] := by
  rcases configuration with ⟨⟨elements, popped⟩, input⟩
  have none : popped = [] := settled
  subst none
  cases elements with
  | nil => cases steps
  | cons top below =>
      have leads : Leads parser ⟨(top :: below).map .read, input⟩ _ :=
        leads_step restores (List.cons_ne_nil _ _)
      rw [configuration_map_read, steps] at leads
      cases leads with
      | next moves => rfl

theorem popped_of_reflTransGen (restores : parser.Restores) {first : Token} {rest : List Token}
    (runs : Relation.ReflTransGen parser.StepsTo ⟨UndoStack.empty.push first, rest⟩ configuration) :
    configuration.stack.popped = [] := by
  induction runs with
  | refl => rfl
  | tail _ steps induction => exact popped_of_stepsTo restores induction steps

end Parser

namespace Table

/-- Looking leaves no trace. After a decision, whatever it is, the stack is as it was, and so it is
after a reduction that fails, which happens exactly if the top of the stack does not show the
right-hand side. A reduction that succeeds replaces just the elements of the right-hand side by one
phrase that has them as children, in reading order. In a whole parse all decisions and reductions
start from stacks without pending pops. -/
theorem stack_after_decide_and_reduce (grammar : Grammar) :
    (∀ elements lookahead,
      ((ofGrammar grammar).decide ⟨elements, []⟩ lookahead).2 = ⟨elements, []⟩) ∧
    (∀ (rule : Rule) elements,
      (∀ cause, (rule.reduce ⟨elements, []⟩).1 = .error cause →
        (rule.reduce ⟨elements, []⟩).2 = ⟨elements, []⟩) ∧
      ((rule.reduce ⟨elements, []⟩).1 = .ok () ↔
        rule.stackOrder <+: elements.map Token.kind) ∧
      ((rule.reduce ⟨elements, []⟩).1 = .ok () →
        ∃ node, (rule.reduce ⟨elements, []⟩).2 = ⟨node :: elements.drop rule.length, []⟩ ∧
          node.kind = rule.lhs ∧ node.isLeaf = false ∧
          node.children = (elements.take rule.length).reverse ∧
          node.children.length = rule.length)) ∧
    ∀ first rest configuration,
      Relation.ReflTransGen (ofGrammar grammar).parser.StepsTo
        ⟨UndoStack.empty.push first, rest⟩ configuration →
      configuration.stack.popped = [] := by
  refine ⟨decide_snd (ofGrammar grammar), ?_, ?_⟩
  · intro rule elements
    refine ⟨fun _ => Rule.reduce_snd_of_error, Rule.reduce_fst_eq_ok_iff, ?_⟩
    intro done
    rcases Rule.reduce_snd_of_ok done with ⟨kinds, after⟩
    have size : (elements.take rule.length).reverse.length = rule.length := by
      rw [← List.length_map, kinds, Rule.length]
    refine ⟨_, after, Token.kind_ofChildren _ _, Token.isLeaf_ofChildren _ _,
      Token.children_ofChildren _ _, ?_⟩
    rw [Token.children_ofChildren, size]
  · intro first rest configuration runs
    exact Parser.popped_of_reflTransGen (ofGrammar grammar).restores runs

end Table

end Stencil
