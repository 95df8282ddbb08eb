import Stencil.Grammar.SetFamily
import Stencil.Proofs.Grammar.UnitCycles

/-! # Heights of phrases

A unit rule leaves the stack as high as it was, but what it builds stands higher than what it builds
from: it reaches one phrase more. There are fewer heights than symbols.
-/

namespace Stencil.UnitRules

variable {rules : List Rule} {rule : Rule} {symbol : Symbol}

theorem isTerminal_of_reaches {above : Symbol} (reached : reaches rules above symbol = true) :
    symbol.isTerminal = false := by
  cases reaches_iff.mp reached with
  | single leads =>
      rcases leads with ⟨rule, -, -, -, phrase⟩
      exact phrase
  | tail _ leads =>
      rcases leads with ⟨rule, -, -, -, phrase⟩
      exact phrase

/-- The number of phrases that a phrase reaches, itself included. -/
def height (rules : List Rule) (symbol : Symbol) : Nat :=
  if symbol.isTerminal then 0 else Symbol.all.countP (reaches rules symbol) + 1

theorem height_lt (rules : List Rule) (symbol : Symbol) :
    height rules symbol < Symbol.all.length := by
  have phrases : Symbol.all.countP (reaches rules symbol) ≤
      Symbol.all.countP fun other => !other.isTerminal := by
    apply List.countP_mono_left
    intro other _ held
    rw [isTerminal_of_reaches held]
    rfl
  have few : (Symbol.all.countP fun other => !other.isTerminal) + 1 < Symbol.all.length := by
    decide
  unfold height
  split
  · decide
  · omega

theorem height_lt_height (acyclic : firstCyclic? rules = none) (member : rule ∈ rules)
    (phrase : rule.lhs.isTerminal = false) (unit : rule.rhs = [symbol]) :
    height rules symbol < height rules rule.lhs := by
  cases terminal : symbol.isTerminal with
  | true => simp [height, terminal, phrase]
  | false =>
      have leads : Leads rules rule.lhs symbol := ⟨rule, member, rfl, unit, terminal⟩
      have more : Symbol.all.countP (reaches rules symbol) <
          Symbol.all.countP (reaches rules rule.lhs) := by
        apply SetFamily.countP_lt_countP
        · intro other _ held
          exact reaches_iff.mpr (.head leads (reaches_iff.mp held))
        · refine ⟨symbol, symbol.mem_all, reaches_iff.mpr (.single leads), ?_⟩
          apply Bool.eq_false_iff.mpr
          intro held
          exact firstCyclic?_eq_none_iff.mp acyclic symbol (reaches_iff.mp held)
      simp only [height, terminal, phrase, Bool.false_eq_true, if_false]
      omega

end Stencil.UnitRules
