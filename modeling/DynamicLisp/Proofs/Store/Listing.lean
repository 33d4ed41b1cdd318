import DynamicLisp.Proofs.Store.Lookup
import DynamicLisp.Proofs.Text.Order

/-!
# Listing what can be seen

A scope can be listed in one way only: its names are distinct, they stand in the order of
their bytes, and each has the value that a lookup finds.

One way to get there goes outward along the chain of a frame, frame after frame and entry
after entry, and keeps the first entry of each name that it meets; sorting by name comes
last. No order of the entries inside a frame is assumed, and none of what was kept: the
result is the listing whatever these orders are.
-/

namespace DynamicLisp

namespace Table

variable {α : Type} {name : String} {found entries : List (String × α)}

/-- Keeps an entry unless its name has one already. -/
def keep (found : List (String × α)) (entry : String × α) : List (String × α) :=
  if (lookup entry.1 found).isSome then found else entry :: found

/-- Entries in the order of the bytes of their names. -/
def byName (a b : String × α) : Bool := Text.bytes a.1 ≤ Text.bytes b.1

theorem lookup_keep (name : String) (found : List (String × α)) (entry : String × α) :
    lookup name (keep found entry) = (lookup name found).or (lookup name [entry]) := by
  obtain ⟨key, value⟩ := entry
  rw [keep]
  by_cases same : key = name
  · subst same
    cases known : lookup key found <;> simp [known, lookup]
  · split <;> simp [same, lookup]

/-- Of several entries of one name the first stays. -/
theorem lookup_keepAll (name : String) (found entries : List (String × α)) :
    lookup name (entries.foldl keep found) = (lookup name found).or (lookup name entries) := by
  induction entries generalizing found with
  | nil => rw [List.foldl_nil, lookup, Option.or_none]
  | cons entry entries ih =>
      rw [List.foldl_cons, ih, lookup_keep, Option.or_assoc, ← lookup_append,
        List.singleton_append]

theorem lookup_eq_none_iff : lookup name entries = none ↔ name ∉ entries.map Prod.fst := by
  induction entries with
  | nil => simp [lookup]
  | cons first rest ih =>
      obtain ⟨key, entry⟩ := first
      by_cases same : key = name
      · simp [lookup, same]
      · simp [lookup, same, ih, Ne.symm same]

theorem nodup_keep (distinct : (found.map Prod.fst).Nodup) (entry : String × α) :
    ((keep found entry).map Prod.fst).Nodup := by
  rw [keep]
  split
  · exact distinct
  · next unknown =>
    have fresh : entry.1 ∉ found.map Prod.fst :=
      lookup_eq_none_iff.mp (Option.not_isSome_iff_eq_none.mp unknown)
    exact List.nodup_cons.mpr ⟨fresh, distinct⟩

theorem nodup_keepAll (distinct : (found.map Prod.fst).Nodup) (entries : List (String × α)) :
    ((entries.foldl keep found).map Prod.fst).Nodup := by
  induction entries generalizing found with
  | nil => exact distinct
  | cons entry entries ih => exact ih (nodup_keep distinct entry)

/-- A lookup does not see in what order the entries of a table stand. -/
theorem lookup_of_perm {table : Table α} (perm : entries.Perm table.toList) (name : String) :
    lookup name entries = table.find? name := by
  have distinct : (entries.map Prod.fst).Nodup :=
    (perm.map Prod.fst).nodup_iff.mpr (nodup_of_sorted table.sorted)
  apply Option.ext
  intro value
  rw [lookup_eq_some_iff_of_nodup distinct, perm.mem_iff, find?_eq_some_iff]

/-- Sorting entries with distinct names puts them in increasing order. -/
theorem increasing_sort (distinct : (entries.map Prod.fst).Nodup) :
    (entries.mergeSort byName).Pairwise fun a b => Text.bytes a.1 < Text.bytes b.1 := by
  have sorted : (entries.mergeSort byName).Pairwise fun a b => byName a b := by
    apply List.pairwise_mergeSort
    · intro a b c ab bc
      simp only [byName, decide_eq_true_eq] at ab bc ⊢
      exact List.le_trans ab bc
    · intro a b
      simp only [byName, Bool.or_eq_true, decide_eq_true_eq]
      exact List.le_total _ _
  have apart : (entries.mergeSort byName).Pairwise fun a b => a.1 ≠ b.1 := by
    rw [← List.pairwise_map]
    exact (((entries.mergeSort_perm byName).map Prod.fst).nodup_iff).mpr distinct
  refine (sorted.and apart).imp ?_
  rintro a b ⟨le, ne⟩
  rw [Text.bytes_lt_iff]
  simp only [byName, decide_eq_true_eq, Text.bytes_le_iff] at le
  by_contra notLt
  exact ne (String.le_antisymm le (String.not_lt.mp notLt))

end Table

/-- The entries are those that can be seen, in the order of the bytes of their names. -/
structure Environment.Lists (env : Environment) (entries : List (String × Value)) : Prop where
  increasing : entries.Pairwise fun a b => Text.bytes a.1 < Text.bytes b.1
  mem_iff : ∀ name value, (name, value) ∈ entries ↔ env.get? name = some value

namespace Environment

variable {env env' : Environment} {entries entries' : List (String × Value)}

theorem lists_bindings (env : Environment) : env.Lists env.bindings where
  increasing := (env.store.visible env.frame).sorted.imp Text.bytes_lt_iff.mpr
  mem_iff name value := by
    rw [bindings, ← Table.find?_eq_some_iff, Store.find?_visible, get?]

/-- Scopes with the same bindings are listed alike. -/
theorem Lists.unique (lists : env.Lists entries) (lists' : env'.Lists entries')
    (same : ∀ name, env.get? name = env'.get? name) : entries = entries' := by
  let table : Table Value := ⟨entries, lists.increasing.imp Text.bytes_lt_iff.mp⟩
  let table' : Table Value := ⟨entries', lists'.increasing.imp Text.bytes_lt_iff.mp⟩
  have equal : table = table' := by
    apply Table.eq_of_find?
    intro name
    apply Option.ext
    intro value
    rw [Table.find?_eq_some_iff, Table.find?_eq_some_iff, lists.mem_iff, lists'.mem_iff, same]
  exact congrArg Table.toList equal

end Environment

namespace Store

variable {store : Store} {f : FrameId} {path : List FrameId}
  {order : FrameId → List (String × Value)}

/-- Goes along a path of frames and keeps the first entry of each name. The entries of a
frame are met in the order that is given for it. -/
def gather (order : FrameId → List (String × Value)) (path : List FrameId) :
    List (String × Value) :=
  path.foldl (fun found f => (order f).foldl Table.keep found) []

theorem gather_eq (order : FrameId → List (String × Value)) (path : List FrameId) :
    gather order path = (path.flatMap order).foldl Table.keep [] := by
  rw [gather, List.foldl_flatMap]

theorem nodup_gather (order : FrameId → List (String × Value)) (path : List FrameId) :
    ((gather order path).map Prod.fst).Nodup := by
  rw [gather_eq]
  apply Table.nodup_keepAll
  exact List.nodup_nil

/-- The first entry of a name along the chain is what a lookup finds. -/
theorem Chain.lookup_flatMap (chain : store.Chain f path) (formed : store.WellFormed)
    (lists : ∀ g ∈ path, (order g).Perm (store.own g).toList) (name : String) :
    Table.lookup name (path.flatMap order) = store.get? f name := by
  induction chain with
  | @root f frame found link =>
      have own := Table.lookup_of_perm (lists f List.mem_cons_self) name
      rw [List.flatMap_singleton, own, own_of_frame? found, get?_of_frame? found, link,
        Option.bind_none, Option.or_none]
  | @inner f frame outer path found link further ih =>
      obtain ⟨earlier, _⟩ := (formed f frame found).inner outer link
      have own := Table.lookup_of_perm (lists f List.mem_cons_self) name
      have outside := ih fun g member => lists g (List.mem_cons_of_mem f member)
      rw [List.flatMap_cons, Table.lookup_append, own, outside, own_of_frame? found,
        get?_of_frame? found, link, Option.bind_some, if_pos earlier]

/-- What was kept along the chain is the scope, and sorting it gives the listing. -/
theorem Chain.lists_sort (chain : store.Chain f path) (formed : store.WellFormed)
    (lists : ∀ g ∈ path, (order g).Perm (store.own g).toList)
    {kept : List (String × Value)} (perm : kept.Perm (gather order path)) :
    Environment.Lists ⟨store, f⟩ (kept.mergeSort Table.byName) where
  increasing := by
    apply Table.increasing_sort
    exact (perm.map Prod.fst).nodup_iff.mpr (nodup_gather order path)
  mem_iff name value := by
    rw [List.mem_mergeSort, perm.mem_iff, ← Table.lookup_eq_some_iff_of_nodup (nodup_gather _ _),
      gather_eq, Table.lookup_keepAll, Table.lookup, Option.none_or,
      chain.lookup_flatMap formed lists, Environment.get?]

end Store

end DynamicLisp
