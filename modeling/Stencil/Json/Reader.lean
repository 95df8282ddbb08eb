import Stencil.Json.Builder
import Stencil.Json.Number

/-!
# Reading JSON

A text is read character by character. Characters between values go to the builder; characters of a
string, and of a number or word, are collected until it ends.
-/

namespace Stencil.Json

/-- Where in a JSON text the next character stands. Collected characters are kept latest first. -/
inductive Position where
  | between
  | bare (read : List Char)
  | string (read : List Char)
  | escape (read : List Char)
  /-- In a string, in an escape of four hexadecimal digits, `count` of which have been read. An
  escape that completes a surrogate pair knows the first half of the pair. -/
  | code (read : List Char) (high : Option Nat) (value count : Nat)
  | pair (read : List Char) (high : Nat)
  | pairEscape (read : List Char) (high : Nat)

structure Reader where
  builder : Builder
  position : Position

namespace Reader

def hexValue? (digit : Char) : Option Nat :=
  if digit.isDigit then some (digit.toNat - '0'.toNat)
  else if 'a' ≤ digit ∧ digit ≤ 'f' then some (digit.toNat - 'a'.toNat + 10)
  else if 'A' ≤ digit ∧ digit ≤ 'F' then some (digit.toNat - 'A'.toNat + 10)
  else none

def isBlank (character : Char) : Bool :=
  character = ' ' || character = '\t' || character = '\n' || character = '\r'

def endsBare (character : Char) : Bool :=
  isBlank character || "[]\x7b\x7d,:\x22".toList.contains character

def bareValue? (text : List Char) : Option Json :=
  if text = ['n', 'u', 'l', 'l'] then some .null
  else if text = ['t', 'r', 'u', 'e'] then some (.bool true)
  else if text = ['f', 'a', 'l', 's', 'e'] then some (.bool false)
  else number? text

def endBare (reader : Reader) : Option Reader :=
  match reader.position with
  | .bare read => do
    let value ← bareValue? read.reverse
    some ⟨← reader.builder.value value, .between⟩
  | _ => some reader

def stepBetween (builder : Builder) (character : Char) : Option Reader := do
  if isBlank character then some ⟨builder, .between⟩
  else if character = '\x22' then some ⟨builder, .string []⟩
  else if character = '[' then some ⟨← builder.enter (.array []) .valueOrEnd, .between⟩
  else if character = ']' then some ⟨← builder.leave true, .between⟩
  else if character = '\x7b' then some ⟨← builder.enter (.object [] "") .nameOrEnd, .between⟩
  else if character = '\x7d' then some ⟨← builder.leave false, .between⟩
  else if character = ',' then some ⟨← builder.comma, .between⟩
  else if character = ':' then some ⟨← builder.colon, .between⟩
  else some ⟨builder, .bare [character]⟩

def shortEscape? (letter : Char) : Option Char :=
  match letter with
  | '\x22' => some '\x22'
  | '\\' => some '\\'
  | '/' => some '/'
  | 'b' => some '\x08'
  | 'f' => some '\x0c'
  | 'n' => some '\n'
  | 'r' => some '\r'
  | 't' => some '\t'
  | _ => none

/-- Ends an escape of four digits. Halves of a surrogate pair have to come in their order, and
together. -/
def endCode (read : List Char) (high : Option Nat) (value : Nat) : Option Position :=
  let isLow := 0xdc00 ≤ value && value < 0xe000
  let isHigh := 0xd800 ≤ value && value < 0xdc00
  match high with
  | some high =>
    if isLow then
      some (.string (Char.ofNat ((high - 0xd800) * 0x400 + (value - 0xdc00) + 0x10000) :: read))
    else none
  | none =>
    if isLow then none
    else if isHigh then some (.pair read value)
    else some (.string (Char.ofNat value :: read))

def step (reader : Reader) (character : Char) : Option Reader := do
  match reader.position with
  | .between => stepBetween reader.builder character
  | .bare read =>
    if endsBare character then
      let reader ← reader.endBare
      stepBetween reader.builder character
    else some { reader with position := .bare (character :: read) }
  | .string read =>
    if character = '\x22' then
      some ⟨← reader.builder.text (String.ofList read.reverse), .between⟩
    else if character = '\\' then some { reader with position := .escape read }
    else if character.toNat < 0x20 then none
    else some { reader with position := .string (character :: read) }
  | .escape read =>
    if character = 'u' then some { reader with position := .code read none 0 0 }
    else
      let meant ← shortEscape? character
      some { reader with position := .string (meant :: read) }
  | .code read high value count =>
    let digit ← hexValue? character
    let value := value * 16 + digit
    if count = 3 then some { reader with position := ← endCode read high value }
    else some { reader with position := .code read high value (count + 1) }
  | .pair read high =>
    if character = '\\' then some { reader with position := .pairEscape read high } else none
  | .pairEscape read high =>
    if character = 'u' then some { reader with position := .code read (some high) 0 0 } else none

def finish (reader : Reader) : Option Json := do
  let reader ← reader.endBare
  match reader.position with
  | .between => reader.builder.finish
  | _ => none

end Reader

def ofCharacters? (text : List Char) : Option Json := do
  let reader ← text.foldlM Reader.step ⟨Builder.start, .between⟩
  reader.finish

end Stencil.Json
