/-!
# Ranked errors

When several attempts fail, the error of the attempt that got furthest says most. Errors are
collected with a rank, the distance that the attempt got; of equal errors only one is kept, with
the larger rank.
-/

namespace Stencil

/-- Different errors with their ranks, in the order in which they were first met. -/
structure RankedErrors (ε : Type) where
  entries : List (ε × Nat)

namespace RankedErrors

variable {ε : Type}

def empty : RankedErrors ε :=
  ⟨[]⟩

/-- Adds an error. If it was met before, it keeps its place and the larger of both ranks. -/
def add [DecidableEq ε] (ranking : RankedErrors ε) (error : ε) (rank : Nat) : RankedErrors ε :=
  if ranking.entries.any (·.1 = error) then
    ⟨ranking.entries.map fun entry =>
      if entry.1 = error then (entry.1, max entry.2 rank) else entry⟩
  else ⟨ranking.entries ++ [(error, rank)]⟩

def maxRank? (ranking : RankedErrors ε) : Option Nat :=
  (ranking.entries.map (·.2)).max?

/-- The better of an entry that was found and a later one, each with its place. The later one needs a
larger rank. -/
def prefer (found : Option ((ε × Nat) × Nat)) (later : (ε × Nat) × Nat) :
    Option ((ε × Nat) × Nat) :=
  match found with
  | none => some later
  | some best => if best.1.2 < later.1.2 then some later else some best

def bestIndex? (ranking : RankedErrors ε) : Option Nat :=
  (ranking.entries.zipIdx.foldl prefer none).map (·.2)

/-- The error with the largest rank; of several the one that was met first. -/
def best? (ranking : RankedErrors ε) : Option ε := do
  let index ← ranking.bestIndex?
  let entry ← ranking.entries[index]?
  return entry.1

/-- Takes the element at a place out of a list. The last element fills the gap. -/
def swapRemove? {α : Type} (elements : List α) (index : Nat) : Option (α × List α) :=
  match elements[index]?, elements.getLast? with
  | some element, some last => some (element, (elements.set index last).dropLast)
  | _, _ => none

/-- Takes the best error out of the ranking, which is not needed any more. -/
def takeBest? (ranking : RankedErrors ε) : Option ε := do
  let index ← ranking.bestIndex?
  let (entry, _) ← swapRemove? ranking.entries index
  return entry.1

def size (ranking : RankedErrors ε) : Nat :=
  ranking.entries.length

def isEmpty (ranking : RankedErrors ε) : Bool :=
  ranking.entries.isEmpty

end RankedErrors

end Stencil
