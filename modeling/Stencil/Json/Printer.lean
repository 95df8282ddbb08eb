import Stencil.Decimal.Shortest
import Stencil.Json.Value

/-!
# Compact JSON

A value is written without blanks. Texts are written as they are, except for quotes, backslashes and
control characters. A number that is no integer always has a point or an exponent.
-/

namespace Stencil.Json

def escape (character : Char) : List Char :=
  if character = '\x22' then ['\\', '\x22']
  else if character = '\\' then ['\\', '\\']
  else if character = '\x08' then ['\\', 'b']
  else if character = '\t' then ['\\', 't']
  else if character = '\n' then ['\\', 'n']
  else if character = '\x0c' then ['\\', 'f']
  else if character = '\r' then ['\\', 'r']
  else if character.toNat < 0x20 then
    '\\' :: 'u' :: '0' :: '0' ::
      [Nat.digitChar (character.toNat / 16), Nat.digitChar (character.toNat % 16)]
  else [character]

def quote (text : String) : String :=
  String.ofList ('\x22' :: (text.toList.flatMap escape ++ ['\x22']))

def formatExponent (exponent : Int) : List Char :=
  if exponent < 0 then (toString exponent).toList else '+' :: (toString exponent).toList

/-- A positive decimal. Up to sixteen digits in front of the point, and up to four zeros behind it,
are written out; anything beyond has an exponent. -/
def formatDecimal (decimal : Decimal) : String :=
  let digits := Nat.toDigits 10 decimal.digits
  let point := digits.length + decimal.power
  let zeros := fun count : Int => List.replicate count.toNat '0'
  String.ofList <|
    if 0 ≤ decimal.power ∧ point ≤ 16 then digits ++ zeros decimal.power ++ ['.', '0']
    else if 0 < point ∧ point ≤ 16 then
      digits.take point.toNat ++ '.' :: digits.drop point.toNat
    else if -5 < point ∧ point ≤ 0 then '0' :: '.' :: (zeros (-point) ++ digits)
    else
      let exponent := formatExponent (point - 1)
      match digits with
      | [digit] => digit :: 'e' :: exponent
      | digit :: more => digit :: '.' :: (more ++ 'e' :: exponent)
      | [] => exponent

def formatFloat (value : Float) : String :=
  let bits := value.toBits
  let negative := bits.toNat / Nat.pow 2 63 = 1
  let magnitude := bits.toNat % Nat.pow 2 63
  let text :=
    if magnitude = 0 then "0.0"
    else formatDecimal (Binary.ofBits (UInt64.ofNat magnitude)).shortest
  if negative then "-" ++ text else text

mutual

def appendTo (out : String) : Json → String
  | null => out ++ "null"
  | bool value => out ++ if value then "true" else "false"
  | integer value => out ++ toString value
  | float value => out ++ formatFloat value
  | string value => out ++ quote value
  | array items => appendItems (out ++ "[") "" items ++ "]"
  | object members => appendMembers (out ++ "\x7b") "" members ++ "\x7d"

def appendItems (out separator : String) : List Json → String
  | [] => out
  | item :: later => appendItems (appendTo (out ++ separator) item) "," later

def appendMembers (out separator : String) : List (String × Json) → String
  | [] => out
  | (name, value) :: later =>
    appendMembers (appendTo (out ++ separator ++ quote name ++ ":") value) "," later

end

def compact (value : Json) : String :=
  appendTo "" value

end Stencil.Json
