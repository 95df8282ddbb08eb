import Stencil.Text.Quoted

/-!
# Why a source cannot be cut into tokens
-/

namespace Stencil

/-- Why a source cannot be cut into tokens. Lines, columns and characters are counted from one. -/
inductive LexError where
  /-- The bytes from this character on are not UTF-8. -/
  | invalidEncoding (index : Nat)
  | unexpectedCharacter (character : Char) (line column : Nat)
  | unexpectedEnd (line column : Nat)
  | loneCarriageReturn (line column : Nat)
deriving DecidableEq

def LexError.placed (line column : Nat) (what : String) : String :=
  "Lexer error at line " ++ toString line ++ ", column " ++ toString column ++ ": " ++ what

def LexError.message : LexError → String
  | invalidEncoding index =>
    "Lexer error at character " ++ toString index ++ ": invalid UTF-8 encoding"
  | unexpectedCharacter character line column =>
    placed line column ("unexpected character " ++ Text.quoteChar character)
  | unexpectedEnd line column => placed line column "unexpected end of input"
  | loneCarriageReturn line column => placed line column "expected '\\n' after '\\r'"

end Stencil
