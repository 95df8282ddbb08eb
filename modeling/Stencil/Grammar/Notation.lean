import Stencil.Grammar.Basic
import Stencil.Text.Blank

/-!
# Grammars written as text

Grammar text has one rule on a line: the name of the left-hand side, an equals sign and the names
of the right-hand side, all between blanks, and a dot at the end of the line. Blank lines are
skipped but counted.
-/

namespace Stencil

namespace Rule

def symbolNamed (name : List Char) : Except RuleTextError Symbol :=
  match Symbol.ofGrammarName? (String.ofList name) with
  | some symbol => .ok symbol
  | none => .error (.unknownSymbol (String.ofList name))

def phraseNamed (name : List Char) : Except RuleTextError Symbol := do
  let symbol ← symbolNamed name
  if symbol.isTerminal then .error (.terminalLhs (String.ofList name)) else .ok symbol

def ofFields (fields : List (List Char)) : Except RuleTextError Rule := do
  let left := fields.takeWhile (· ≠ ['='])
  match fields.dropWhile (· ≠ ['=']) with
  | [] => .error .missingEquals
  | _ :: right =>
    match left with
    | [] => .error .emptyLhs
    | [name] =>
      let lhs ← phraseNamed name
      let rhs ← right.mapM symbolNamed
      match ofSides? lhs rhs with
      | some rule => .ok rule
      | none => .error .emptyRhs
    | several => .error (.multipleLhs several.length)

/-- The rule that a line without outer blanks describes. The dot may touch the last name. -/
def ofLine (line : List Char) : Except RuleTextError Rule :=
  if line.getLast? = some '.' then ofFields (Text.splitFields line.dropLast)
  else .error .missingTerminator

end Rule

namespace Grammar

def rulesOfLines : List (List Char × Nat) → Except GrammarError (List Rule)
  | [] => .ok []
  | (line, number) :: later =>
    if line.isEmpty then rulesOfLines later
    else match Rule.ofLine line with
      | .error cause => .error (.badLine number cause)
      | .ok rule => (rulesOfLines later).map (rule :: ·)

def rulesOfText (text : String) : Except GrammarError (List Rule) :=
  rulesOfLines ((Text.splitLines text.toList).map Text.trim |>.zipIdx 1)

def ofText (text : String) : Except GrammarError Grammar := do
  ofRules (← rulesOfText text)

end Grammar

end Stencil
