import Stencil.Json.Value

/-!
# Putting JSON values together

Values, brackets and separators come in one after the other, and the builder keeps the arrays and
objects that are still open. Whatever cannot come next is refused.
-/

namespace Stencil.Json

/-- An array or object that is still open. Its parts are kept latest first. -/
inductive Frame where
  | array (items : List Json)
  | object (members : List (String × Json)) (name : String)

inductive Expectation where
  | value
  | valueOrEnd
  | name
  | nameOrEnd
  | colon
  | commaOrEnd
deriving DecidableEq

structure Builder where
  frames : List Frame
  expectation : Expectation
  result : Option Json

namespace Builder

def start : Builder :=
  ⟨[], .value, none⟩

def maxDepth : Nat :=
  127

/-- The members of an object by the order of their names, of equal names the one that came last.
They are given latest first. -/
def sortMembers (members : List (String × Json)) : List (String × Json) :=
  let sorted := members.mergeSort fun left right => left.1 ≤ right.1
  (sorted.foldl
    (fun kept member =>
      match kept with
      | last :: _ => if last.1 = member.1 then kept else member :: kept
      | [] => [member])
    []).reverse

def place (builder : Builder) (value : Json) : Option Builder :=
  match builder.frames with
  | [] =>
    if builder.result.isNone then some { builder with expectation := .commaOrEnd, result := value }
    else none
  | .array items :: outer =>
    some { builder with frames := .array (value :: items) :: outer, expectation := .commaOrEnd }
  | .object members name :: outer =>
    some { builder with
      frames := .object ((name, value) :: members) name :: outer
      expectation := .commaOrEnd }

def value (builder : Builder) (value : Json) : Option Builder :=
  match builder.expectation with
  | .value | .valueOrEnd => builder.place value
  | _ => none

def text (builder : Builder) (text : String) : Option Builder :=
  match builder.expectation, builder.frames with
  | .name, .object members _ :: outer | .nameOrEnd, .object members _ :: outer =>
    some { builder with frames := .object members text :: outer, expectation := .colon }
  | _, _ => builder.value (.string text)

def enter (builder : Builder) (frame : Frame) (expectation : Expectation) : Option Builder :=
  match builder.expectation with
  | .value | .valueOrEnd =>
    if builder.result.isNone && builder.frames.length < maxDepth then
      some { builder with frames := frame :: builder.frames, expectation }
    else none
  | _ => none

def leave (builder : Builder) (array : Bool) : Option Builder :=
  match array, builder.frames, builder.expectation with
  | true, .array items :: outer, .valueOrEnd | true, .array items :: outer, .commaOrEnd =>
    { builder with frames := outer }.place (.array items.reverse)
  | false, .object members _ :: outer, .nameOrEnd
  | false, .object members _ :: outer, .commaOrEnd =>
    { builder with frames := outer }.place (.object (sortMembers members))
  | _, _, _ => none

def comma (builder : Builder) : Option Builder :=
  match builder.frames, builder.expectation with
  | .array _ :: _, .commaOrEnd => some { builder with expectation := .value }
  | .object .. :: _, .commaOrEnd => some { builder with expectation := .name }
  | _, _ => none

def colon (builder : Builder) : Option Builder :=
  match builder.expectation with
  | .colon => some { builder with expectation := .value }
  | _ => none

def finish (builder : Builder) : Option Json :=
  match builder.frames with
  | [] => builder.result
  | _ => none

end Builder

end Stencil.Json
