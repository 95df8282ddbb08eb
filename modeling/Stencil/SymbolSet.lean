import Stencil.PerSymbol

/-!
# Sets of symbols with a boundary

What may stand next to a symbol is a set of symbols, plus a boundary marker for the case that
nothing stands there: for the symbols that may follow it is the end of the input, for the symbols
that may come before it is the bottom of the stack. Two sets are equal exactly if they hold the
same symbols and agree on the boundary.
-/

namespace Stencil

/-- A set of symbols, which may also hold the boundary. -/
structure SymbolSet where
  members : PerSymbol Bool
  boundary : Bool
deriving DecidableEq

namespace SymbolSet

def empty : SymbolSet :=
  ⟨PerSymbol.replicate false, false⟩

def contains (set : SymbolSet) : Option Symbol → Bool
  | some symbol => set.members.get symbol
  | none => set.boundary

def insert (set : SymbolSet) (symbol : Symbol) : SymbolSet :=
  { set with members := set.members.set symbol true }

def insertBoundary (set : SymbolSet) : SymbolSet :=
  { set with boundary := true }

def union (left right : SymbolSet) : SymbolSet :=
  ⟨PerSymbol.ofFn fun symbol => left.members.get symbol || right.members.get symbol,
    left.boundary || right.boundary⟩

def ofList (symbols : List Symbol) : SymbolSet :=
  symbols.foldl insert empty

def singleton (symbol : Symbol) : SymbolSet :=
  empty.insert symbol

def toList (set : SymbolSet) : List Symbol :=
  Symbol.all.filter set.members.get

def isEmpty (set : SymbolSet) : Bool :=
  set.toList.isEmpty && !set.boundary

def grew (before after : SymbolSet) : Bool :=
  after != before

/-! ## What each operation holds -/

@[simp] theorem contains_empty (slot : Option Symbol) : empty.contains slot = false := by
  cases slot <;> simp [contains, empty]

theorem contains_insert (set : SymbolSet) (added : Symbol) (slot : Option Symbol) :
    (set.insert added).contains slot = (decide (slot = some added) || set.contains slot) := by
  cases slot with
  | none => simp [contains, insert]
  | some symbol =>
    by_cases same : added = symbol
    · simp [contains, insert, PerSymbol.get_set, same]
    · have apart : ¬symbol = added := fun equal => same equal.symm
      simp [contains, insert, PerSymbol.get_set, same, apart]

@[simp] theorem contains_insertBoundary (set : SymbolSet) (slot : Option Symbol) :
    set.insertBoundary.contains slot = (decide (slot = none) || set.contains slot) := by
  cases slot <;> simp [contains, insertBoundary]

@[simp] theorem contains_union (left right : SymbolSet) (slot : Option Symbol) :
    (left.union right).contains slot = (left.contains slot || right.contains slot) := by
  cases slot <;> simp [contains, union]

@[simp] theorem contains_singleton (symbol : Symbol) (slot : Option Symbol) :
    (singleton symbol).contains slot = decide (slot = some symbol) := by
  simp [singleton, contains_insert]

theorem mem_toList (set : SymbolSet) (symbol : Symbol) :
    symbol ∈ set.toList ↔ set.contains (some symbol) = true := by
  simp [toList, contains, Symbol.mem_all]

@[ext] theorem ext {left right : SymbolSet}
    (agree : ∀ slot, left.contains slot = right.contains slot) : left = right := by
  cases left with
  | mk leftMembers leftBoundary =>
    cases right with
    | mk rightMembers rightBoundary =>
      have members : leftMembers = rightMembers := PerSymbol.ext fun symbol => agree (some symbol)
      have boundary : leftBoundary = rightBoundary := agree none
      rw [members, boundary]

/-! ## Wording -/

/-- A list of alternatives in words: commas between them and "or" before the last one. -/
def alternatives : List String → String
  | [] => "nothing"
  | [only] => only
  | several => String.intercalate ", " several.dropLast ++ " or " ++ several.getLastD ""

def describe (set : SymbolSet) (boundary : String) : String :=
  alternatives (set.toList.map Symbol.title ++ if set.boundary then [boundary] else [])

end SymbolSet

end Stencil
