import Stencil.Symbol

/-!
# One value for every symbol

Tables that are indexed by grammar symbols. Such a table has one entry for each symbol, so two
tables are equal as soon as they agree on every symbol.
-/

namespace Stencil

structure PerSymbol (α : Type) where
  endOfInput : α
  dot : α
  newline : α
  text : α
  openBraces : α
  closeBraces : α
  name : α
  blank : α
  source : α
  elements : α
  element : α
  placeholder : α
  blanks : α
deriving DecidableEq

namespace PerSymbol

variable {α : Type}

def get (table : PerSymbol α) : Symbol → α
  | .endOfInput => table.endOfInput
  | .dot => table.dot
  | .newline => table.newline
  | .text => table.text
  | .openBraces => table.openBraces
  | .closeBraces => table.closeBraces
  | .name => table.name
  | .blank => table.blank
  | .source => table.source
  | .elements => table.elements
  | .element => table.element
  | .placeholder => table.placeholder
  | .blanks => table.blanks

def set (table : PerSymbol α) (symbol : Symbol) (value : α) : PerSymbol α :=
  match symbol with
  | .endOfInput => { table with endOfInput := value }
  | .dot => { table with dot := value }
  | .newline => { table with newline := value }
  | .text => { table with text := value }
  | .openBraces => { table with openBraces := value }
  | .closeBraces => { table with closeBraces := value }
  | .name => { table with name := value }
  | .blank => { table with blank := value }
  | .source => { table with source := value }
  | .elements => { table with elements := value }
  | .element => { table with element := value }
  | .placeholder => { table with placeholder := value }
  | .blanks => { table with blanks := value }

/-- The table of a function's values, each computed once. -/
def ofFn (value : Symbol → α) : PerSymbol α where
  endOfInput := value .endOfInput
  dot := value .dot
  newline := value .newline
  text := value .text
  openBraces := value .openBraces
  closeBraces := value .closeBraces
  name := value .name
  blank := value .blank
  source := value .source
  elements := value .elements
  element := value .element
  placeholder := value .placeholder
  blanks := value .blanks

def replicate (value : α) : PerSymbol α :=
  ofFn fun _ => value

@[simp] theorem get_ofFn (value : Symbol → α) (symbol : Symbol) :
    (ofFn value).get symbol = value symbol := by
  cases symbol <;> rfl

@[simp] theorem get_replicate (value : α) (symbol : Symbol) :
    (replicate value).get symbol = value := by
  simp [replicate]

theorem get_set_self (table : PerSymbol α) (symbol : Symbol) (value : α) :
    (table.set symbol value).get symbol = value := by
  cases symbol <;> rfl

theorem get_set_of_ne (table : PerSymbol α) {changed symbol : Symbol} (value : α)
    (different : changed ≠ symbol) : (table.set changed value).get symbol = table.get symbol := by
  cases changed <;> cases symbol <;> trivial

theorem get_set (table : PerSymbol α) (changed symbol : Symbol) (value : α) :
    (table.set changed value).get symbol =
      if changed = symbol then value else table.get symbol := by
  split
  · subst changed
    exact get_set_self table symbol value
  · exact get_set_of_ne table value ‹_›

theorem ofFn_get (table : PerSymbol α) : ofFn table.get = table := rfl

@[ext] theorem ext {left right : PerSymbol α}
    (agree : ∀ symbol, left.get symbol = right.get symbol) : left = right := by
  rw [← ofFn_get left, ← ofFn_get right, funext agree]

end PerSymbol

end Stencil
