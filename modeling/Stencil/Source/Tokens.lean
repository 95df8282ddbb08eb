import Stencil.Log
import Stencil.Source.Error
import Stencil.Source.Lexeme
import Stencil.Text.Utf8

/-!
# The tokens of a source

A source is cut into lexemes from left to right. Every token remembers the bytes that it covers and
the line and column of its first character. The last token stands for the end of the input.
-/

namespace Stencil

structure Place where
  offset : Nat
  line : Nat
  column : Nat
deriving DecidableEq

namespace Place

def origin : Place :=
  ⟨0, 1, 1⟩

def afterChar (place : Place) (character : Char) : Place :=
  if character = '\n' then ⟨place.offset + character.utf8Size, place.line + 1, 1⟩
  else ⟨place.offset + character.utf8Size, place.line, place.column + 1⟩

def after (place : Place) (characters : List Char) : Place :=
  characters.foldl afterChar place

def spanTo (first last : Place) : Span :=
  ⟨first.offset, last.offset, first.line, first.column⟩

end Place

namespace Source

/-- The text of a token. A line break is always a line feed. -/
def tokenText (kind : Symbol) (raw : List Char) : String :=
  if kind = .newline then "\n" else String.ofList raw

def tokenAt (place : Place) (kind : Symbol) (raw : List Char) : Token :=
  .leaf kind (tokenText kind raw) (place.spanTo (place.after raw)) none

/-- Cuts the rest of a source into tokens, behind the tokens read so far, the latest first. The
tokens come with the place at which the source ends, or with the fault that stopped the reading. -/
def cut (mode : Mode) (place : Place) (source : List Char) (read : List Token) :
    List Token × Except LexError Place :=
  match source with
  | [] =>
    (read.reverse,
      if mode = .name then .error (.unexpectedEnd place.line place.column) else .ok place)
  | character :: rest =>
    match _found : Lexeme.first mode character rest with
    | .token kind raw rest mode =>
      cut mode (place.after raw) rest (tokenAt place kind raw :: read)
    | .skipped raw rest => cut mode (place.after raw) rest read
    | .loneCarriageReturn =>
      (read.reverse, .error (.loneCarriageReturn place.line place.column))
    | .unexpected character =>
      (read.reverse, .error (.unexpectedCharacter character place.line place.column))
termination_by source.length
decreasing_by
  · exact Lexeme.length_rest_lt (Lexeme.token_of_first _found)
  · exact Lexeme.length_rest_lt (Lexeme.skipped_of_first _found)

def endToken (place : Place) : Token :=
  .leaf .endOfInput "" (place.spanTo place) none

def tokenize (characters : List Char) : Attempt LexError (List Token) :=
  let (read, outcome) := cut .text .origin characters []
  let events := read.map .tokenRead
  match outcome with
  | .error error => ⟨.error error, events⟩
  | .ok place =>
    let tokens := Token.link (read ++ [endToken place])
    ⟨.ok tokens, events ++ [.lexed tokens.length]⟩

def tokenizeText (text : String) : Attempt LexError (List Token) :=
  tokenize text.toList

def tokenizeBytes (bytes : ByteArray) : Attempt LexError (List Token) :=
  match Text.decodeUtf8 bytes with
  | .ok characters => tokenize characters
  | .error place => throw (.invalidEncoding (Text.charactersBefore bytes place + 1))

end Source

end Stencil
