import Stencil.Text.Printable

/-!
# Quoted characters and texts

A character or text inside a message is written between quotes on one line. The quote in use, the
backslash and five control characters have short escapes, and any other character without a glyph
of its own is written by its code point.
-/

namespace Stencil.Text

inductive Quote where
  | single
  | double
deriving DecidableEq

def Quote.mark : Quote → Char
  | single => '\x27'
  | double => '\x22'

def codePointEscape (character : Char) : List Char :=
  '\\' :: 'u' :: '\x7b' :: (Nat.toDigits 16 character.toNat ++ ['\x7d'])

/-- How one character is written inside a quotation. Only the quote in use is escaped, so a text
shows an apostrophe as it is and a character shows a double quote as it is. -/
def escape (quote : Quote) (character : Char) : List Char :=
  if character = '\x00' then ['\\', '0']
  else if character = '\t' then ['\\', 't']
  else if character = '\r' then ['\\', 'r']
  else if character = '\n' then ['\\', 'n']
  else if character = '\\' then ['\\', '\\']
  else if character = quote.mark then ['\\', quote.mark]
  else if isPrintable character then [character]
  else codePointEscape character

def quoteChar (character : Char) : String :=
  String.ofList (Quote.single.mark :: (escape .single character ++ [Quote.single.mark]))

def quoteText (text : String) : String :=
  String.ofList
    (Quote.double.mark :: (text.toList.flatMap (escape .double) ++ [Quote.double.mark]))

end Stencil.Text
