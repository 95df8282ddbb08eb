import Stencil.Grammar.Rule
import Stencil.Grammar.SetFamily

/-!
# What may lie below a phrase

PRECEDE of a symbol holds the symbols that can lie directly below it on the stack when it begins a
phrase, and the boundary if it can begin the whole text. A symbol begins a phrase together with
every symbol that leads it, so the sets are computed with the LEFT sets: LEFT of a symbol holds the
symbol itself and everything with which it can begin, phrases included.
-/

namespace Stencil

namespace LeftSets

def addRule (left : SetFamily) (rule : Rule) : SetFamily :=
  left.extend rule.lhs (left.get rule.head)

def round (rules : List Rule) (left : SetFamily) : SetFamily :=
  rules.foldl addRule left

theorem included_round (rules : List Rule) (left : SetFamily) :
    SetFamily.Included left (round rules left) :=
  SetFamily.included_foldl (fun _ _ => SetFamily.included_extend _ _ _) rules left

def ofRules (rules : List Rule) : SetFamily :=
  SetFamily.saturate (round rules) (included_round rules) (.ofFn SymbolSet.singleton)

end LeftSets

namespace PrecedeSets

def extendAll (precede : SetFamily) (symbols : List Symbol) (added : SymbolSet) : SetFamily :=
  symbols.foldl (fun family symbol => family.extend symbol added) precede

theorem included_extendAll (symbols : List Symbol) (precede : SetFamily) (added : SymbolSet) :
    SetFamily.Included precede (extendAll precede symbols added) :=
  SetFamily.included_foldl (fun _ _ => SetFamily.included_extend _ _ _) symbols precede

/-- Two neighbours on a right-hand side: the first can lie below everything that begins the
second. -/
def addNeighbours (left : SetFamily) (precede : SetFamily) : List Symbol → SetFamily
  | below :: symbol :: rest =>
    addNeighbours left (extendAll precede (left.get symbol).toList (.singleton below))
      (symbol :: rest)
  | _ => precede

def seed (left : SetFamily) (rules : List Rule) (start : Symbol) : SetFamily :=
  rules.foldl (fun precede rule => addNeighbours left precede rule.rhs)
    (extendAll (.replicate .empty) (left.get start).toList SymbolSet.empty.insertBoundary)

def addRule (left : SetFamily) (precede : SetFamily) (rule : Rule) : SetFamily :=
  extendAll precede (left.get rule.head).toList (precede.get rule.lhs)

def round (left : SetFamily) (rules : List Rule) (precede : SetFamily) : SetFamily :=
  rules.foldl (addRule left) precede

theorem included_round (left : SetFamily) (rules : List Rule) (precede : SetFamily) :
    SetFamily.Included precede (round left rules precede) :=
  SetFamily.included_foldl (fun _ _ => included_extendAll _ _ _) rules precede

def ofRules (rules : List Rule) (start : Symbol) : SetFamily :=
  let left := LeftSets.ofRules rules
  SetFamily.saturate (round left rules) (included_round left rules) (seed left rules start)

end PrecedeSets

end Stencil
