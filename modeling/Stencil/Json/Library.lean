import Stencil.Command.Environment
import Stencil.Json.Printer
import Stencil.Json.Reader
import Stencil.Text.Utf8

/-!
# Reading and writing JSON
-/

namespace Stencil.Json

/-- What a value is for a command. Of members with the same name the last one counts. -/
def shape : Json → Command.JsonShape Json
  | string content => .text content
  | object members => .object (NameMap.empty.insertAll members)
  | _ => .other

def parse (bytes : ByteArray) : Except String Json :=
  match Text.decodeUtf8 bytes with
  | .error _ => .error "invalid unicode"
  | .ok characters =>
    match ofCharacters? characters with
    | none => .error "invalid JSON"
    | some value => .ok value

def library : Command.JsonLibrary Json :=
  ⟨parse, shape, compact⟩

end Stencil.Json
