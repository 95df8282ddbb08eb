import Stencil.Table.Error

/-!
# Why an input cannot be parsed
-/

namespace Stencil

structure ReduceError where
  lhs : Symbol
  expected : Symbol
  got : Option Symbol
  preceding : Option Symbol
deriving DecidableEq

inductive ParseError where
  | noTokens
  | decision (line column : Nat) (cause : DecisionError)
  | reduce (line column : Nat) (cause : ReduceError)
  | pastEnd
  | notAccepted
  | leftoverStack (count : Nat)
  | trailingInput (count : Nat)
  | wrongRoot (expected got : Symbol)
  /-- Reductions follow each other without end. Only a rule for a terminal can cause this. -/
  | endless
deriving DecidableEq

def ReduceError.message (error : ReduceError) : String :=
  let place := match error.preceding with
    | some symbol => " before " ++ symbol.title
    | none => ""
  "after " ++ error.lhs.title ++ ": expected " ++ error.expected.title ++ place ++ ", got " ++
    Symbol.titleOr "nothing" error.got ++ " instead"

def ParseError.message : ParseError → String
  | noTokens => "Parse error: no tokens"
  | decision line column cause =>
    "Parse error at line " ++ toString line ++ ", column " ++ toString column ++
      ": could not decide: " ++ cause.message
  | reduce line column cause =>
    "Parse error at line " ++ toString line ++ ", column " ++ toString column ++
      ": reduce failed: " ++ cause.message
  | pastEnd => "Parse error: shift failed, input is exhausted"
  | notAccepted => "Parse error: input ended before the parse was accepted"
  | leftoverStack count =>
    "Parse error: " ++ toString count ++ " element(s) left on the stack after accept"
  | trailingInput count =>
    "Parse error: " ++ toString count ++ " token(s) left unconsumed after accept"
  | wrongRoot expected got =>
    "Parse error: expected " ++ expected.title ++ " at the root, got " ++ got.title
  | endless => "Parse error: the parse does not end"

end Stencil
