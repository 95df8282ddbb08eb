/-!
# Values by name

Entries are kept in the order of their names, and no name occurs twice. A new entry takes the place of
one with the same name.
-/

namespace Stencil

structure NameMap (α : Type) where
  entries : List (String × α)
  ordered : entries.Pairwise fun first second => first.1 < second.1

namespace NameMap

variable {α : Type}

def empty : NameMap α :=
  ⟨[], .nil⟩

def insertEntry (name : String) (value : α) : List (String × α) → List (String × α)
  | [] => [(name, value)]
  | (other, present) :: later =>
    if name < other then (name, value) :: (other, present) :: later
    else if name = other then (name, value) :: later
    else (other, present) :: insertEntry name value later

theorem name_of_mem_insertEntry {name : String} {value : α} {entries : List (String × α)}
    {entry : String × α} (member : entry ∈ insertEntry name value entries) :
    entry.1 = name ∨ entry ∈ entries := by
  induction entries with
  | nil => exact .inl (congrArg Prod.fst (List.mem_singleton.mp member))
  | cons first later induction =>
      rw [insertEntry] at member
      split at member
      · rcases List.mem_cons.mp member with rfl | member
        · exact .inl rfl
        · exact .inr member
      · split at member
        · rcases List.mem_cons.mp member with rfl | member
          · exact .inl rfl
          · exact .inr (List.mem_cons_of_mem _ member)
        · rcases List.mem_cons.mp member with rfl | member
          · exact .inr List.mem_cons_self
          · exact (induction member).imp_right (List.mem_cons_of_mem _)

theorem pairwise_insertEntry {entries : List (String × α)}
    (ordered : entries.Pairwise fun first second => first.1 < second.1) (name : String) (value : α) :
    (insertEntry name value entries).Pairwise fun first second => first.1 < second.1 := by
  induction entries with
  | nil => exact List.pairwise_singleton _ _
  | cons first later induction =>
      rcases List.pairwise_cons.mp ordered with ⟨before, rest⟩
      rw [insertEntry]
      split
      · rename_i smaller
        refine List.pairwise_cons.mpr ⟨?_, ordered⟩
        intro entry member
        rcases List.mem_cons.mp member with rfl | member
        · exact smaller
        · exact String.lt_trans smaller (before entry member)
      · rename_i larger
        split
        · rename_i same
          exact List.pairwise_cons.mpr ⟨same ▸ before, rest⟩
        · rename_i different
          refine List.pairwise_cons.mpr ⟨?_, induction rest⟩
          intro entry member
          rcases name_of_mem_insertEntry member with named | member
          · rw [named]
            exact Std.lt_of_le_of_ne (String.not_lt.mp larger) (Ne.symm different)
          · exact before entry member

def insert (map : NameMap α) (name : String) (value : α) : NameMap α :=
  ⟨insertEntry name value map.entries, pairwise_insertEntry map.ordered name value⟩

def insertAll (map : NameMap α) (entries : List (String × α)) : NameMap α :=
  entries.foldl (fun map entry => map.insert entry.1 entry.2) map

def map {β : Type} (map : NameMap α) (change : α → β) : NameMap β :=
  ⟨map.entries.map fun (name, value) => (name, change value), List.pairwise_map.mpr map.ordered⟩

def names (map : NameMap α) : List String :=
  map.entries.map Prod.fst

def lookup (map : NameMap α) (name : String) : Option α :=
  map.entries.lookup name

theorem lookup_insertEntry (name other : String) (value : α) (entries : List (String × α)) :
    (insertEntry name value entries).lookup other =
      if other = name then some value else entries.lookup other := by
  induction entries with
  | nil =>
      rw [insertEntry, List.lookup_cons]
      by_cases same : other = name
      · simp [same]
      · simp [same, beq_false_of_ne same]
  | cons first later induction =>
      rw [insertEntry]
      by_cases same : other = name
      · subst same
        rw [if_pos rfl] at induction ⊢
        split
        · simp
        · split
          · simp
          · rename_i different
            rw [List.lookup_cons, beq_false_of_ne different]
            exact induction
      · have missed : (other == name) = false := beq_false_of_ne same
        rw [if_neg same] at induction ⊢
        split
        · rw [List.lookup_cons, missed]
        · split
          · rename_i equal
            rw [List.lookup_cons, List.lookup_cons, ← equal, missed]
          · rw [List.lookup_cons, List.lookup_cons, induction]

theorem lookup_insert (map : NameMap α) (name other : String) (value : α) :
    (map.insert name value).lookup other =
      if other = name then some value else map.lookup other :=
  lookup_insertEntry name other value map.entries

theorem lookup_map {β : Type} (map : NameMap α) (change : α → β) (name : String) :
    (map.map change).lookup name = (map.lookup name).map change := by
  change (map.entries.map _).lookup name = (map.entries.lookup name).map change
  induction map.entries with
  | nil => rfl
  | cons entry later induction =>
      rw [List.map_cons, List.lookup_cons, List.lookup_cons, induction]
      cases name == entry.1 <;> rfl

end NameMap

end Stencil
