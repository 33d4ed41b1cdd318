/-!
# Tables of named entries

A table holds at most one entry for a name and keeps its names in increasing
order. Strings are ordered by their characters, which is also the order of their
UTF-8 bytes, so listing a table never depends on the order in which it was
filled. Frames, and both halves of a registry, are tables.

Because the order is part of the type, a table is determined by what `find?`
answers: two tables with the same answers are equal.
-/

namespace DynamicLisp

/-- A finite map from names to entries, listed in increasing order of names. -/
@[ext] structure Table (α : Type) where
  toList : List (String × α)
  sorted : toList.Pairwise (fun a b => a.1 < b.1)

namespace Table

variable {α : Type}

/-- The table without entries. -/
def empty : Table α := ⟨[], .nil⟩

/-- Looks a name up in a list of entries. -/
def lookup (name : String) : List (String × α) → Option α
  | [] => none
  | (key, entry) :: rest => if key = name then some entry else lookup name rest

/-- Puts an entry at its place in an ordered list, in place of an entry that
already has the name. -/
def insertInto (name : String) (entry : α) : List (String × α) → List (String × α)
  | [] => [(name, entry)]
  | (key, old) :: rest =>
    if name < key then (name, entry) :: (key, old) :: rest
    else if name = key then (name, entry) :: rest
    else (key, old) :: insertInto name entry rest

theorem mem_insertInto {name : String} {entry : α} {pair : String × α}
    {entries : List (String × α)} (h : pair ∈ insertInto name entry entries) :
    pair = (name, entry) ∨ pair ∈ entries := by
  induction entries with
  | nil => simpa [insertInto] using h
  | cons first rest ih =>
    obtain ⟨key, old⟩ := first
    simp only [insertInto] at h
    split at h
    · simpa using h
    · split at h
      · rcases List.mem_cons.mp h with h | h
        · exact .inl h
        · exact .inr (List.mem_cons_of_mem _ h)
      · rcases List.mem_cons.mp h with h | h
        · exact .inr (h ▸ List.mem_cons_self)
        · exact (ih h).imp id (List.mem_cons_of_mem _)

/-- Insertion keeps the order. -/
theorem sorted_insertInto (name : String) (entry : α) {entries : List (String × α)}
    (h : entries.Pairwise (fun a b => a.1 < b.1)) :
    (insertInto name entry entries).Pairwise (fun a b => a.1 < b.1) := by
  induction entries with
  | nil => simp [insertInto]
  | cons first rest ih =>
    obtain ⟨key, old⟩ := first
    obtain ⟨hfirst, hrest⟩ := List.pairwise_cons.mp h
    simp only [insertInto]
    split
    · next hlt =>
      refine List.pairwise_cons.mpr ⟨fun pair hpair => ?_, h⟩
      rcases List.mem_cons.mp hpair with rfl | hpair
      · exact hlt
      · exact String.lt_trans hlt (hfirst pair hpair)
    · next hlt =>
      split
      · next heq =>
        subst heq
        exact List.pairwise_cons.mpr ⟨hfirst, hrest⟩
      · next hne =>
        refine List.pairwise_cons.mpr ⟨fun pair hpair => ?_, ih hrest⟩
        rcases mem_insertInto hpair with rfl | hpair
        · exact Decidable.byContradiction fun hnot =>
            hne (String.le_antisymm (String.not_lt.mp hnot) (String.not_lt.mp hlt))
        · exact hfirst pair hpair

/-- The entry of a name, if it has one. -/
def find? (table : Table α) (name : String) : Option α :=
  lookup name table.toList

/-- Whether a name has an entry. -/
def contains (table : Table α) (name : String) : Bool :=
  (table.find? name).isSome

/-- Gives a name an entry, replacing the one it had. -/
def insert (table : Table α) (name : String) (entry : α) : Table α :=
  ⟨insertInto name entry table.toList, sorted_insertInto name entry table.sorted⟩

/-- Inserts a list of entries from left to right, so that the last entry of a
name is the one that stays. -/
def insertAll (table : Table α) (entries : List (String × α)) : Table α :=
  entries.foldl (fun table pair => table.insert pair.1 pair.2) table

/-- The table of a list of entries, in which the last entry of a name counts. -/
def ofList (entries : List (String × α)) : Table α :=
  empty.insertAll entries

/-- The entries of both tables; where both have a name, the entry of `inner`. -/
def override (outer inner : Table α) : Table α :=
  outer.insertAll inner.toList

/-- The names in increasing order. -/
def names (table : Table α) : List String :=
  table.toList.map Prod.fst

@[simp] theorem find?_empty (name : String) : (empty : Table α).find? name = none := rfl

theorem lookup_insertInto_self (name : String) (entry : α) (entries : List (String × α)) :
    lookup name (insertInto name entry entries) = some entry := by
  induction entries with
  | nil => simp [insertInto, lookup]
  | cons first rest ih =>
    obtain ⟨key, old⟩ := first
    simp only [insertInto]
    split
    · simp [lookup]
    · split
      · simp [lookup]
      · next hne => simp [lookup, Ne.symm hne, ih]

theorem lookup_insertInto_ne {name other : String} (h : other ≠ name) (entry : α)
    (entries : List (String × α)) :
    lookup other (insertInto name entry entries) = lookup other entries := by
  induction entries with
  | nil => simp [insertInto, lookup, Ne.symm h]
  | cons first rest ih =>
    obtain ⟨key, old⟩ := first
    simp only [insertInto]
    split
    · simp [lookup, Ne.symm h]
    · split
      · next heq => subst heq; simp [lookup, Ne.symm h]
      · simp [lookup, ih]

@[simp] theorem find?_insert_self (table : Table α) (name : String) (entry : α) :
    (table.insert name entry).find? name = some entry :=
  lookup_insertInto_self name entry table.toList

theorem find?_insert_ne (table : Table α) {name other : String} (h : other ≠ name) (entry : α) :
    (table.insert name entry).find? other = table.find? other :=
  lookup_insertInto_ne h entry table.toList

end Table

end DynamicLisp
