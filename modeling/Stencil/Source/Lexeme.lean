import Stencil.Symbol
import Stencil.Text.LetterCase

/-!
# Lexemes

A lexeme is a piece of the source that is one token, or blanks that are none. Outside placeholders
only two opening braces, line breaks and blanks end a piece of text. Inside, blanks next to the
braces belong to the braces, other blanks are skipped, and a dot has to be followed by a name.

The main statement is that a lexeme is a non-empty beginning of the source, so that cutting lexemes
off comes to an end and loses nothing.
-/

namespace Stencil

inductive Mode where
  | text
  | placeholder
  | name
deriving DecidableEq

inductive Lexeme where
  /-- A token: its kind, its characters, what stands behind it, and the mode there. -/
  | token (kind : Symbol) (raw rest : List Char) (mode : Mode)
  | skipped (raw rest : List Char)
  | loneCarriageReturn
  | unexpected (character : Char)

namespace Lexeme

def isSpacing (character : Char) : Bool :=
  character = ' ' || character = '\t'

def opens : List Char → Bool
  | first :: second :: _ => first = '\x7b' && second = '\x7b'
  | _ => false

def closes : List Char → Bool
  | first :: second :: _ => first = '\x7d' && second = '\x7d'
  | _ => false

def endsText : List Char → Bool
  | [] => true
  | character :: rest =>
    isSpacing character || character = '\n' || character = '\r' || opens (character :: rest)

/-- Cuts literal text off a source, behind the characters cut off so far, the latest first. -/
def cutText (taken : List Char) : List Char → List Char × List Char
  | [] => (taken.reverse, [])
  | character :: rest =>
    if endsText (character :: rest) then (taken.reverse, character :: rest)
    else cutText (character :: taken) rest

def opening (source : List Char) : Lexeme :=
  let inside := source.drop 2
  token .openBraces (source.take 2 ++ inside.takeWhile isSpacing) (inside.dropWhile isSpacing)
    .placeholder

def closing (spacing source : List Char) : Lexeme :=
  token .closeBraces (spacing ++ source.take 2) (source.drop 2) .text

/-- A line break. A carriage return counts only with the line feed behind it. -/
def lineBreak (mode : Mode) (character : Char) (rest : List Char) : Lexeme :=
  if character = '\n' then token .newline ['\n'] rest mode
  else match rest with
    | '\n' :: rest => token .newline ['\r', '\n'] rest mode
    | _ => loneCarriageReturn

def isCased (character : Char) : Bool :=
  Text.isUppercase character || Text.isLowercase character

/-- A name: words in a row, each a capital letter with small letters behind it. Such a row is a
capital letter with letters of both cases behind it. -/
def nameRun (character : Char) (rest : List Char) : Lexeme :=
  token .name (character :: rest.takeWhile isCased) (rest.dropWhile isCased) .placeholder

def firstOfText (character : Char) (rest : List Char) : Lexeme :=
  if opens (character :: rest) then opening (character :: rest)
  else if character = '\n' || character = '\r' then lineBreak .text character rest
  else if isSpacing character then
    token .blank (character :: rest.takeWhile isSpacing) (rest.dropWhile isSpacing) .text
  else
    let (text, rest) := cutText [character] rest
    token .text text rest .text

def firstOfPlaceholder (character : Char) (rest : List Char) : Lexeme :=
  if isSpacing character then
    let spacing := character :: rest.takeWhile isSpacing
    let behind := rest.dropWhile isSpacing
    if closes behind then closing spacing behind else skipped spacing behind
  else if closes (character :: rest) then closing [] (character :: rest)
  else if opens (character :: rest) then opening (character :: rest)
  else if character = '.' then token .dot ['.'] rest .name
  else if character = '\n' || character = '\r' then lineBreak .placeholder character rest
  else if character = '\x7b' || character = '\x7d' then token .text [character] rest .placeholder
  else if Text.isUppercase character then nameRun character rest
  else unexpected character

def first (mode : Mode) (character : Char) (rest : List Char) : Lexeme :=
  match mode with
  | .text => firstOfText character rest
  | .placeholder => firstOfPlaceholder character rest
  | .name => if Text.isUppercase character then nameRun character rest else unexpected character

/-! ## A lexeme is a beginning of the source -/

def Begins (source : List Char) : Lexeme → Prop
  | token _ raw rest _ | skipped raw rest => raw ≠ [] ∧ raw ++ rest = source
  | loneCarriageReturn | unexpected _ => True

theorem begins_opening {source : List Char} (braces : opens source = true) :
    Begins source (opening source) := by
  match source, braces with
  | first :: second :: later, _ => simp [opening, Begins]

theorem begins_closing (spacing : List Char) {source : List Char} (braces : closes source = true) :
    Begins (spacing ++ source) (closing spacing source) := by
  match source, braces with
  | first :: second :: later, _ => simp [closing, Begins]

theorem begins_lineBreak (mode : Mode) {character : Char} (rest : List Char)
    (breaks : character = '\n' ∨ character = '\r') :
    Begins (character :: rest) (lineBreak mode character rest) := by
  unfold lineBreak
  split
  · simp_all [Begins]
  · split <;> simp_all [Begins]

theorem begins_nameRun (character : Char) (rest : List Char) :
    Begins (character :: rest) (nameRun character rest) := by
  simp [nameRun, Begins]

theorem cutText_eq (taken source : List Char) :
    (cutText taken source).1 ++ (cutText taken source).2 = taken.reverse ++ source := by
  induction source generalizing taken with
  | nil => simp [cutText]
  | cons character rest induction =>
    unfold cutText
    split
    · rfl
    · simp [induction]

theorem cutText_ne_nil {taken : List Char} (nonempty : taken ≠ []) (source : List Char) :
    (cutText taken source).1 ≠ [] := by
  induction source generalizing taken with
  | nil => simpa [cutText] using nonempty
  | cons character rest induction =>
    unfold cutText
    split
    · simpa using nonempty
    · exact induction (by simp)

theorem begins_firstOfText (character : Char) (rest : List Char) :
    Begins (character :: rest) (firstOfText character rest) := by
  unfold firstOfText
  split
  · exact begins_opening ‹_›
  · split
    · exact begins_lineBreak _ _ (by simp_all)
    · split
      · simp [Begins]
      · exact ⟨cutText_ne_nil (by simp) rest, by simpa using cutText_eq [character] rest⟩

theorem begins_firstOfPlaceholder (character : Char) (rest : List Char) :
    Begins (character :: rest) (firstOfPlaceholder character rest) := by
  unfold firstOfPlaceholder
  split
  · dsimp only
    split
    · have whole := begins_closing (character :: rest.takeWhile isSpacing) ‹_›
      rwa [List.cons_append, List.takeWhile_append_dropWhile] at whole
    · simp [Begins]
  · split
    · exact begins_closing [] ‹_›
    · split
      · exact begins_opening ‹_›
      · split
        · simp_all [Begins]
        · split
          · exact begins_lineBreak _ _ (by simp_all)
          · split
            · simp [Begins]
            · split
              · exact begins_nameRun character rest
              · trivial

theorem begins_first (mode : Mode) (character : Char) (rest : List Char) :
    Begins (character :: rest) (first mode character rest) := by
  unfold first
  split
  · exact begins_firstOfText character rest
  · exact begins_firstOfPlaceholder character rest
  · split
    · exact begins_nameRun character rest
    · trivial

theorem length_rest_lt {source raw rest : List Char} (begins : raw ≠ [] ∧ raw ++ rest = source) :
    rest.length < source.length := by
  have lengths := congrArg List.length begins.2
  have positive := List.length_pos_iff.mpr begins.1
  simp only [List.length_append] at lengths
  omega

theorem token_of_first {mode next : Mode} {character : Char} {source rest raw : List Char}
    {kind : Symbol} (found : first mode character source = token kind raw rest next) :
    raw ≠ [] ∧ raw ++ rest = character :: source := by
  have begins := begins_first mode character source
  rwa [found] at begins

theorem skipped_of_first {mode : Mode} {character : Char} {source rest raw : List Char}
    (found : first mode character source = skipped raw rest) :
    raw ≠ [] ∧ raw ++ rest = character :: source := by
  have begins := begins_first mode character source
  rwa [found] at begins

end Lexeme

end Stencil
