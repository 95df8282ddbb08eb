import Stencil.Table.Build

/-!
# The grammar of templates

A template is a non-empty row of elements: text, line breaks, blanks, and placeholders such as
`{{ .Name }}`.
-/

namespace Stencil.Template

def grammarText : String :=
  "\nSource = Source1 EOF .\n" ++
  "Source1 = Elem .\n" ++
  "Source1 = Elem Source1 .\n" ++
  "Elem = Variable .\n" ++
  "Elem = text .\n" ++
  "Elem = newline .\n" ++
  "Elem = Sws .\n" ++
  "Variable = op_curly dot variable_name cl_curly .\n" ++
  "Sws = ws .\n" ++
  "Sws = ws Sws .\n"

def rules : List Rule :=
  [{ lhs := .source, rhs := [.elements, .endOfInput] },
   { lhs := .elements, rhs := [.element] },
   { lhs := .elements, rhs := [.element, .elements] },
   { lhs := .element, rhs := [.placeholder] },
   { lhs := .element, rhs := [.text] },
   { lhs := .element, rhs := [.newline] },
   { lhs := .element, rhs := [.blanks] },
   { lhs := .placeholder, rhs := [.openBraces, .dot, .name, .closeBraces] },
   { lhs := .blanks, rhs := [.blank] },
   { lhs := .blanks, rhs := [.blank, .blanks] }]

def grammar : Grammar where
  rules := rules
  start := .source
  start_eq := by decide
  defined := by decide
  acyclic := by decide +kernel

def table : Table :=
  Table.ofGrammar grammar

def readyTable : Reported Table :=
  pure table

def freshTable : Reported Table := do
  report (.grammarChecked grammar)
  Table.tabulate grammar

end Stencil.Template
