import Stencil.Parse.Run
import Stencil.Source.Tokens
import Stencil.Template.Error
import Stencil.Template.Grammar

/-!
# Templates

A template is read from a source and remembers its pieces. Rendering has two phases: applying data
replaces placeholders by the texts that the data has for their names, and writing puts out what is
then there. Data is applied as a whole or not at all.
-/

namespace Stencil

inductive PlaceholderPolicy where
  | keep
  | refuse
deriving DecidableEq

structure Template.Options where
  trailing : TrailingPolicy := .warn
  unresolved : PlaceholderPolicy := .keep
deriving DecidableEq

structure Template where
  pieces : List Piece
  options : Template.Options
deriving DecidableEq

namespace Template

/-! ## Reading -/

def ofTokens (prepared : Reported Table) (options : Template.Options) (tokens : List Token) :
    Attempt TemplateError Template := do
  report (.scanned tokens.length)
  let table ← prepared
  let tree ← (table.parse options.trailing tokens).adapt .parse
  report (.parsed tree)
  let pieces ← (Piece.ofTree tree).adapt .structure
  pure { pieces, options }

def ofText (prepared : Reported Table) (options : Template.Options) (source : String) :
    Attempt TemplateError Template := do
  ofTokens prepared options (← (Source.tokenizeText source).adapt .lex)

def ofBytes (prepared : Reported Table) (options : Template.Options) (source : ByteArray) :
    Attempt TemplateError Template := do
  ofTokens prepared options (← (Source.tokenizeBytes source).adapt .lex)

def tree (template : Template) : PieceTree :=
  .source template.pieces

def unresolved (template : Template) : List String :=
  template.pieces.filterMap Piece.name?

/-! ## Applying data

Data is applied in two passes. The first asks for the value of every placeholder and changes nothing.
The second puts the values in the places of the placeholders, and nothing can stop it any more. -/

/-- How far the names of placeholders have been looked up. Lists have the latest entry first. -/
structure Progress where
  asked : List String
  missing : List String
  /-- The values found, each with the place of its placeholder among the pieces. -/
  found : List (Nat × String)

/-- Looks up the names of the placeholders among pieces one after the other, up to the first
failure. The first of the pieces has the given place. -/
def lookUp (lookup : Lookup) (place : Nat) (progress : Progress) :
    List Piece → Progress × Except ApplyError Unit
  | [] => (progress, .ok ())
  | .text _ :: later => lookUp lookup (place + 1) progress later
  | .placeholder name _ :: later =>
    let progress := { progress with asked := name :: progress.asked }
    match lookup name with
    | .error error => (progress, .error error)
    | .ok none =>
      lookUp lookup (place + 1) { progress with missing := name :: progress.missing } later
    | .ok (some value) =>
      lookUp lookup (place + 1) { progress with found := (place, value) :: progress.found } later

def gathering (template : Template) (lookup : Lookup) : Progress × Except ApplyError Unit :=
  lookUp lookup 0 ⟨[], [], []⟩ template.pieces

def replaceAll (pieces : Array Piece) (values : List (Nat × String)) : Array Piece :=
  values.foldl (fun pieces (place, value) => pieces.setIfInBounds place (.text value)) pieces

/-- The names that are looked up when data is applied, in order. -/
def asked (template : Template) (lookup : Lookup) : List String :=
  (template.gathering lookup).1.asked.reverse

abbrev Kept := Work Template

namespace Kept

/-- Replaces every placeholder that has a value, and counts them. -/
def apply (lookup : Lookup) : Kept ApplyError Nat := do
  let (progress, outcome) := (← get).gathering lookup
  reportAll (progress.missing.reverse.map .valueMissing)
  MonadExcept.ofExcept outcome
  modify fun template =>
    { template with pieces := (replaceAll template.pieces.toArray progress.found.reverse).toList }
  let resolved := progress.found.length
  report (.resolved resolved)
  return resolved

/-- A copy, with data applied to the copy. -/
def resolved (lookup : Lookup) : Kept ApplyError Template := do
  let (outcome, copy) ← (apply lookup).run.run (← get)
  let _ ← MonadExcept.ofExcept outcome
  return copy

end Kept

/-- What comes of applying data, and the template as it is afterwards. -/
def apply (template : Template) (lookup : Lookup) : Reported (Except ApplyError Nat × Template) :=
  (Kept.apply lookup).run.run template

def resolved (template : Template) (lookup : Lookup) : Attempt ApplyError Template :=
  (Kept.resolved lookup).result template

/-! ## Writing -/

def portions (template : Template) : List String :=
  template.pieces.map Piece.written

def checkResolved (template : Template) : Except WriteError Unit :=
  match template.options.unresolved, template.unresolved with
  | .refuse, name :: _ => .error (.unresolved name)
  | _, _ => .ok ()

end Template

end Stencil
