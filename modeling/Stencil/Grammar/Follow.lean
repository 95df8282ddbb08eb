import Stencil.Grammar.First

/-!
# What may follow a phrase

FOLLOW of a phrase holds the terminals that can stand right behind it, and the boundary if it can
stand at the end of the input. Behind a symbol of a rule stands the beginning of the next symbol;
behind the last symbol stands whatever follows the whole phrase.
-/

namespace Stencil.FollowSets

/-- The contributions of the symbols of one right-hand side, from left to right. Terminals have no
FOLLOW set. -/
def addSymbols (first : SetFamily) (lhs : Symbol) (follow : SetFamily) : List Symbol → SetFamily
  | [] => follow
  | symbol :: rest =>
    let incoming := match rest with
      | next :: _ => FirstSets.beginnings first next
      | [] => follow.get lhs
    let larger := if symbol.isTerminal then follow else follow.extend symbol incoming
    addSymbols first lhs larger rest

def addRule (first : SetFamily) (follow : SetFamily) (rule : Rule) : SetFamily :=
  addSymbols first rule.lhs follow rule.rhs

def round (first : SetFamily) (rules : List Rule) (follow : SetFamily) : SetFamily :=
  rules.foldl (addRule first) follow

theorem included_addSymbols (first : SetFamily) (lhs : Symbol) (symbols : List Symbol)
    (follow : SetFamily) : SetFamily.Included follow (addSymbols first lhs follow symbols) := by
  induction symbols generalizing follow with
  | nil => exact SetFamily.Included.refl follow
  | cons symbol rest induction =>
    refine SetFamily.Included.trans ?_ (induction _)
    split
    · exact SetFamily.Included.refl follow
    · exact SetFamily.included_extend _ _ _

theorem included_round (first : SetFamily) (rules : List Rule) (follow : SetFamily) :
    SetFamily.Included follow (round first rules follow) := by
  have adds : ∀ family rule, SetFamily.Included family (addRule first family rule) :=
    fun family rule => included_addSymbols first rule.lhs rule.rhs family
  exact SetFamily.included_foldl adds rules follow

def seed (start : Symbol) : SetFamily :=
  SetFamily.extend (.replicate .empty) start SymbolSet.empty.insertBoundary

def ofRules (first : SetFamily) (rules : List Rule) (start : Symbol) : SetFamily :=
  SetFamily.saturate (round first rules) (included_round first rules) (seed start)

end Stencil.FollowSets
