import DynamicLisp.Table

/-!
# Laws of tables

A table is determined by what `find?` answers, so every equation between tables
reduces to a comparison of answers. Insertion of many entries is described by the
last entry of a name, and `override` by the inner answer wherever there is one.
-/

namespace DynamicLisp.Table

variable {α : Type}

theorem mem_of_lookup {name : String} {entry : α} {entries : List (String × α)}
    (found : lookup name entries = some entry) : (name, entry) ∈ entries := by
  induction entries with
  | nil => cases found
  | cons first rest ih =>
      obtain ⟨key, old⟩ := first
      by_cases same : key = name
      · obtain rfl : old = entry := by simpa [lookup, same] using found
        simp [same]
      · exact List.mem_cons_of_mem _ (ih (by simpa [lookup, same] using found))

/-- Where no name occurs twice, the entry found for a name is the only one it has. -/
theorem lookup_eq_some_iff_of_nodup {entries : List (String × α)}
    (distinct : (entries.map Prod.fst).Nodup) {name : String} {entry : α} :
    lookup name entries = some entry ↔ (name, entry) ∈ entries := by
  induction entries with
  | nil => simp [lookup]
  | cons first rest ih =>
      obtain ⟨key, old⟩ := first
      obtain ⟨fresh, later⟩ := List.nodup_cons.mp distinct
      by_cases same : key = name
      · subst same
        have absent : (key, entry) ∉ rest := fun member =>
          fresh (List.mem_map.mpr ⟨_, member, rfl⟩)
        simp [lookup, absent, eq_comm]
      · simp [lookup, same, Ne.symm same, ih later]

theorem nodup_of_sorted {entries : List (String × α)}
    (sorted : entries.Pairwise (fun a b => a.1 < b.1)) : (entries.map Prod.fst).Nodup := by
  refine List.pairwise_map.mpr (sorted.imp ?_)
  intro a b lt same
  exact String.lt_irrefl b.1 (same ▸ lt)

theorem lookup_eq_some_iff {entries : List (String × α)}
    (sorted : entries.Pairwise (fun a b => a.1 < b.1)) {name : String} {entry : α} :
    lookup name entries = some entry ↔ (name, entry) ∈ entries :=
  lookup_eq_some_iff_of_nodup (nodup_of_sorted sorted)

theorem find?_eq_some_iff (table : Table α) {name : String} {entry : α} :
    table.find? name = some entry ↔ (name, entry) ∈ table.toList :=
  lookup_eq_some_iff table.sorted

/-- Tables with the same answers are equal. -/
theorem eq_of_find? {first second : Table α}
    (same : ∀ name, first.find? name = second.find? name) : first = second := by
  have distinct : ∀ table : Table α, table.toList.Nodup := fun table =>
    List.Pairwise.of_map Prod.fst (fun _ _ => mt (congrArg Prod.fst)) (nodup_of_sorted table.sorted)
  have members : ∀ pair : String × α, pair ∈ first.toList ↔ pair ∈ second.toList := by
    rintro ⟨name, entry⟩
    rw [← find?_eq_some_iff, ← find?_eq_some_iff, same name]
  have perm : first.toList.Perm second.toList :=
    (List.perm_ext_iff_of_nodup (distinct first) (distinct second)).mpr fun pair => members pair
  apply Table.ext
  refine perm.eq_of_pairwise ?_ first.sorted second.sorted
  intro a b _ _ ab ba
  exact absurd (String.lt_trans ab ba) (String.lt_irrefl a.1)

theorem find?_insert (table : Table α) (name other : String) (entry : α) :
    (table.insert name entry).find? other =
      if other = name then some entry else table.find? other := by
  by_cases same : other = name
  · subst same
    rw [find?_insert_self, if_pos rfl]
  · rw [find?_insert_ne table same, if_neg same]

theorem lookup_append (name : String) (first second : List (String × α)) :
    lookup name (first ++ second) = (lookup name first).or (lookup name second) := by
  induction first with
  | nil => rfl
  | cons pair rest ih =>
      obtain ⟨key, entry⟩ := pair
      by_cases same : key = name
      · simp [lookup, same]
      · simp [lookup, same, ih]

/-- Of several entries of one name the last counts, before anything the table
held already. -/
theorem find?_insertAll (table : Table α) (entries : List (String × α)) (name : String) :
    (table.insertAll entries).find? name =
      (lookup name entries.reverse).or (table.find? name) := by
  induction entries generalizing table with
  | nil => rfl
  | cons pair rest ih =>
      obtain ⟨key, entry⟩ := pair
      have step : table.insertAll ((key, entry) :: rest) =
          (table.insert key entry).insertAll rest := rfl
      rw [step, ih, List.reverse_cons, lookup_append, Option.or_assoc, find?_insert]
      congr 1
      by_cases same : name = key
      · simp [lookup, same]
      · simp [lookup, same, Ne.symm same]

theorem find?_ofList (entries : List (String × α)) (name : String) :
    (ofList entries).find? name = lookup name entries.reverse := by
  rw [ofList, find?_insertAll, find?_empty, Option.or_none]

/-- A table of names and values binds no other values. -/
theorem mem_of_find?_ofList_zip {names : List String} {values : List α} {name : String}
    {value : α} (bound : (ofList (names.zip values)).find? name = some value) :
    value ∈ values := by
  rw [find?_ofList] at bound
  exact (List.of_mem_zip (List.mem_reverse.mp (mem_of_lookup bound))).2

/-- Of names with one spelling the last one counts. -/
theorem find?_ofList_zip {names : List String} {values : List α} {i : Nat}
    {name : String} {value : α} (named : names[i]? = some name)
    (last : name ∉ names.drop (i + 1)) (placed : values[i]? = some value) :
    (ofList (names.zip values)).find? name = some value := by
  rw [find?_ofList]
  induction i generalizing names values with
  | zero =>
      obtain _ | ⟨first, names⟩ := names
      · cases named
      obtain _ | ⟨front, values⟩ := values
      · cases placed
      obtain rfl : first = name := Option.some.inj named
      obtain rfl : front = value := Option.some.inj placed
      have absent : lookup first (names.zip values).reverse = none := by
        cases found : lookup first (names.zip values).reverse with
        | none => rfl
        | some old =>
            have member := List.mem_reverse.mp (mem_of_lookup found)
            exact absurd (List.of_mem_zip member).1 last
      simp [lookup_append, absent, lookup]
  | succ i ih =>
      obtain _ | ⟨first, names⟩ := names
      · cases named
      obtain _ | ⟨front, values⟩ := values
      · cases placed
      simp [lookup_append, ih named last placed]

/-- The order of an ordered list does not matter to a lookup. -/
theorem lookup_reverse {entries : List (String × α)}
    (sorted : entries.Pairwise (fun a b => a.1 < b.1)) (name : String) :
    lookup name entries.reverse = lookup name entries := by
  induction entries with
  | nil => rfl
  | cons first rest ih =>
      obtain ⟨key, entry⟩ := first
      obtain ⟨below, later⟩ := List.pairwise_cons.mp sorted
      rw [List.reverse_cons, lookup_append, ih later]
      by_cases same : key = name
      · subst same
        have absent : lookup key rest = none := by
          cases found : lookup key rest with
          | none => rfl
          | some old =>
              exact absurd (below _ ((lookup_eq_some_iff later).mp found)) (String.lt_irrefl key)
        simp [lookup, absent]
      · simp [lookup, same]

/-- Where the inner table has a name its answer counts, else that of the outer. -/
theorem find?_override (outer inner : Table α) (name : String) :
    (outer.override inner).find? name = (inner.find? name).or (outer.find? name) := by
  rw [override, find?_insertAll, lookup_reverse inner.sorted]
  rfl

theorem override_empty (inner : Table α) : empty.override inner = inner := by
  apply eq_of_find?
  intro name
  rw [find?_override, find?_empty, Option.or_none]

/-- Collecting entries first and overriding with them is inserting them. -/
theorem override_ofList (outer : Table α) (entries : List (String × α)) :
    outer.override (ofList entries) = outer.insertAll entries := by
  apply eq_of_find?
  intro name
  rw [find?_override, find?_ofList, find?_insertAll]

/-- An entry added to the inner table is an entry added to the whole. -/
theorem override_insert (outer inner : Table α) (name : String) (entry : α) :
    outer.override (inner.insert name entry) = (outer.override inner).insert name entry := by
  apply eq_of_find?
  intro other
  rw [find?_override, find?_insert, find?_insert, find?_override]
  by_cases same : other = name
  · rw [if_pos same, if_pos same]
    rfl
  · rw [if_neg same, if_neg same]

end DynamicLisp.Table
