import Stencil.Text.Quoted

/-!
# The command line

The command line has general options, a command, and the command's own options and file. General
options may stand on both sides of the command. How arguments are taken apart is left to a reader,
which is told how the value of an assignment is read.
-/

namespace Stencil.Command

inductive Name where
  | check
  | tokens
  | tree
  | render
deriving DecidableEq

inductive Flag where
  | verbose
  | strictTrailing
  | ast
  | strict
deriving DecidableEq

inductive Setting where
  | data
  | set
deriving DecidableEq

namespace Name

def spelling : Name → String
  | check => "check"
  | tokens => "tokens"
  | tree => "tree"
  | render => "render"

def flags : Name → List Flag
  | tree => [.verbose, .strictTrailing, .ast]
  | render => [.verbose, .strictTrailing, .strict]
  | _ => [.verbose, .strictTrailing]

def settings : Name → List Setting
  | render => [.data, .set]
  | _ => []

end Name

def Flag.spelling : Flag → String
  | verbose => "verbose"
  | strictTrailing => "strict-trailing"
  | ast => "ast"
  | strict => "strict"

def Setting.spelling : Setting → String
  | data => "data"
  | set => "set"

def generalFlags : List Flag :=
  [.verbose, .strictTrailing]

structure Options where
  verbosity : Nat := 0
  strictTrailing : Bool := false
  /-- Whether the pieces are to be shown instead of the parse tree. -/
  ast : Bool := false
  strict : Bool := false
  data : Option String := none
  assignments : List (String × String) := []
deriving DecidableEq

structure Invocation extends Options where
  command : Name
  path : String
deriving DecidableEq

/-- A name and a value around the first equals sign. The name must not be empty. -/
def readAssignment (text : String) : Except String (String × String) :=
  match text.toList.takeWhile (· ≠ '='), text.toList.dropWhile (· ≠ '=') with
  | first :: more, _ :: value => .ok (String.ofList (first :: more), String.ofList value)
  | _, _ => .error ("expected NAME=VALUE, got " ++ Text.quoteText text)

/-- What is left when the arguments end the program, with a complaint or because they only ask for
help or the version. -/
structure Ended where
  code : Nat
  output : String
  reports : String

/-- Takes arguments apart, given how the value of an assignment is read. -/
structure ArgumentReader where
  read : (String → Except String (String × String)) → List String → Except Ended Invocation

end Stencil.Command
