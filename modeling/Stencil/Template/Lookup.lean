import Stencil.NameMap
import Stencil.Text.Quoted

/-!
# Looking values up

A placeholder's name is looked up in the caller's data. Maps answer by themselves; a value of any
other type answers through readers, one for each of its fields.
-/

namespace Stencil

inductive ApplyError where
  | noData
  | unreadableField (name reason : String)
deriving DecidableEq

def ApplyError.message : ApplyError → String
  | noData => "Apply error: no data record"
  | unreadableField name reason =>
    "Apply error: field " ++ Text.quoteText name ++ " could not be read: " ++ reason

/-- The text for a name, if the data has one. -/
abbrev Lookup := String → Except ApplyError (Option String)

namespace Lookup

/-- Looks names up in a map. The first entry for a name counts. -/
def ofMap (fields : List (String × String)) : Lookup :=
  fun name => .ok (fields.lookup name)

def missing : Lookup :=
  fun _ => .error .noData

def ofAnswers (answers : List (String × Except ApplyError (Option String))) : Lookup :=
  fun name => (answers.lookup name).getD (.ok none)

end Lookup

abbrev FieldReader (α : Type) := α → Except String String

structure FieldReaders (α : Type) where
  readers : NameMap (FieldReader α)

namespace FieldReaders

variable {α : Type}

def empty : FieldReaders α :=
  ⟨.empty⟩

/-- Adds a reader that may fail. A later reader of the same name takes its place. -/
def add (readers : FieldReaders α) (name : String) (reader : FieldReader α) : FieldReaders α :=
  ⟨readers.readers.insert name reader⟩

def addTotal (readers : FieldReaders α) (name : String) (read : α → String) : FieldReaders α :=
  readers.add name fun value => .ok (read value)

def names (readers : FieldReaders α) : List String :=
  readers.readers.names

def lookup (readers : FieldReaders α) (value : α) : Lookup :=
  fun name =>
    match readers.readers.lookup name with
    | none => .ok none
    | some reader =>
      match reader value with
      | .ok text => .ok (some text)
      | .error reason => .error (.unreadableField name reason)

end FieldReaders

end Stencil
