import Stencil.Parse.Error
import Stencil.Source.Error
import Stencil.Template.Lookup
import Stencil.Template.Lowering

/-!
# What can go wrong with a template
-/

namespace Stencil

inductive WriteError where
  | unresolved (name : String)
  | stopped (written : Nat)
  | sinkFailed (reason : String)
deriving DecidableEq

def WriteError.message : WriteError → String
  | unresolved name => "Write error: placeholder " ++ Text.quoteText name ++ " is unresolved"
  | stopped written =>
    "Write error: sink stopped accepting bytes after " ++ toString written ++ " byte(s)"
  | sinkFailed reason => "Write error: " ++ reason

inductive TemplateError where
  | lex (error : LexError)
  | parse (error : ParseError)
  | structure (error : StructureError)
  | apply (error : ApplyError)
  | write (error : WriteError)
deriving DecidableEq

def TemplateError.message : TemplateError → String
  | lex error => error.message
  | parse error => error.message
  | .structure error => error.message
  | apply error => error.message
  | write error => error.message

end Stencil
