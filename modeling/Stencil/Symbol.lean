/-!
# Grammar symbols

The symbols of a grammar are the kinds of token that a template is cut into and the kinds of phrase
that the parser builds from them. There are finitely many, in a fixed order: the order in which
every listing of symbols is sorted.
-/

namespace Stencil

/-- The kind of a token or of a phrase. The tokens come first: the end of the input, and what a source
is cut into, where `text` has neither blanks nor line breaks and `blank` is a run of spaces and tabs.
Then come the phrases: a whole template, a row of elements, a single element, a placeholder with its
braces, and a row of blanks. -/
inductive Symbol where
  | endOfInput
  | dot
  | newline
  | text
  | openBraces
  | closeBraces
  | name
  | blank
  | source
  | elements
  | element
  | placeholder
  | blanks
deriving DecidableEq

namespace Symbol

def all : List Symbol :=
  [endOfInput, dot, newline, text, openBraces, closeBraces, name, blank,
    source, elements, element, placeholder, blanks]

def index : Symbol → Nat
  | endOfInput => 0
  | dot => 1
  | newline => 2
  | text => 3
  | openBraces => 4
  | closeBraces => 5
  | name => 6
  | blank => 7
  | source => 8
  | elements => 9
  | element => 10
  | placeholder => 11
  | blanks => 12

theorem mem_all (symbol : Symbol) : symbol ∈ all := by
  cases symbol <;> decide

theorem index_inj {left right : Symbol} (equal : left.index = right.index) : left = right := by
  cases left <;> cases right <;> simp_all [index]

/-- Whether a symbol stands for a token of the input rather than for a phrase. -/
def isTerminal : Symbol → Bool
  | source | elements | element | placeholder | blanks => false
  | _ => true

/-! ## Names

A symbol has three spellings: the name used in grammar text, the wording used in messages, and the
identifier used in traces. -/

def grammarName : Symbol → String
  | endOfInput => "EOF"
  | dot => "dot"
  | newline => "newline"
  | text => "text"
  | openBraces => "op_curly"
  | closeBraces => "cl_curly"
  | name => "variable_name"
  | blank => "ws"
  | source => "Source"
  | elements => "Source1"
  | element => "Elem"
  | placeholder => "Variable"
  | blanks => "Sws"

def title : Symbol → String
  | endOfInput => "end of input"
  | dot => "dot"
  | newline => "newline"
  | text => "text"
  | openBraces => "open curly"
  | closeBraces => "close curly"
  | name => "variable name"
  | blank => "whitespace"
  | source => "Source"
  | elements => "Source (I)"
  | element => "Element"
  | placeholder => "Variable"
  | blanks => "Skippable whitespace"

def traceName : Symbol → String
  | endOfInput => "Eof"
  | dot => "Dot"
  | newline => "Newline"
  | text => "Text"
  | openBraces => "OpCurly"
  | closeBraces => "ClCurly"
  | name => "VariableName"
  | blank => "Ws"
  | source => "Source"
  | elements => "Source1"
  | element => "Elem"
  | placeholder => "Variable"
  | blanks => "Sws"

def ofGrammarName? (name : String) : Option Symbol :=
  all.find? (·.grammarName == name)

theorem ofGrammarName?_grammarName (symbol : Symbol) :
    ofGrammarName? symbol.grammarName = some symbol := by
  cases symbol <;> decide

end Symbol

def Symbol.titleOr (missing : String) : Option Symbol → String
  | some symbol => symbol.title
  | none => missing

end Stencil
