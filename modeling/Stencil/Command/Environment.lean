import Stencil.NameMap

/-!
# What commands find around them

A command reads files, and its data is JSON. How JSON is read and written is left open: all that a
command sees of a value is whether it is a string or an object, and what it is as a text.
-/

namespace Stencil.Command

inductive FileEntry where
  | absent
  | unreadable (reason : String)
  | contents (bytes : ByteArray)

abbrev Files := String → FileEntry

inductive JsonShape (Value : Type) where
  | text (content : String)
  | object (members : NameMap Value)
  | other

structure JsonLibrary (Value : Type) where
  parse : ByteArray → Except String Value
  shape : Value → JsonShape Value
  compact : Value → String

end Stencil.Command
