import Stencil.Text.CharClass

/-!
# Blank characters, lines and fields

The property White_Space of the Unicode standard, and the three ways a plain text format cuts text
by it: into lines, into fields between blanks, and by trimming both ends.
-/

namespace Stencil.Text

/-- The code points of the property White_Space. -/
def blankRuns : List CharRun :=
  [.block 0x9 0xd, .block 0x20 0x20, .block 0x85 0x85, .block 0xa0 0xa0, .block 0x1680 0x1680,
   .block 0x2000 0x200a, .block 0x2028 0x2029, .block 0x202f 0x202f, .block 0x205f 0x205f,
   .block 0x3000 0x3000]

def isBlank (character : Char) : Bool :=
  inRuns blankRuns character.toNat

/-- The lines of a text without their line feeds. A line feed at the very end closes the last line
and opens no further one. -/
def splitLines (text : List Char) : List (List Char) :=
  text.foldr
    (fun character lines =>
      if character = '\n' then [] :: lines
      else match lines with
        | [] => [[character]]
        | line :: later => (character :: line) :: later)
    []

def trim (text : List Char) : List Char :=
  ((text.dropWhile isBlank).reverse.dropWhile isBlank).reverse

/-- The maximal runs of characters that are not blank, and whether the first of them touches the
beginning of the text. -/
def splitTouching (text : List Char) : List (List Char) × Bool :=
  text.foldr
    (fun character (fields, touching) =>
      if isBlank character then (fields, false)
      else match fields, touching with
        | field :: later, true => ((character :: field) :: later, true)
        | fields, _ => ([character] :: fields, true))
    ([], false)

def splitFields (text : List Char) : List (List Char) :=
  (splitTouching text).1

end Stencil.Text
