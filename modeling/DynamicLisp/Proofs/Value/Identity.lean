import DynamicLisp.Value

/-!
# What an identity stands for

Programs tell closures apart by their identities and look at nothing else of them. This
makes sense as long as no two closures with different parameters or bodies have one
identity. A book says what every identity stands for. Identities are handed out in
increasing order, so the book is a list, and an identity is a place in it.

Among values whose closures are all entered in one book, equality as programs see it is
equality.
-/

namespace DynamicLisp

/-- The parameters and the body that belong to each identity handed out so far. -/
abbrev Book := List (List String × Value)

namespace Value

/-- A value occurs in another: it is the other one, or it occurs in an item of a list or
in the body of a closure. -/
inductive OccursIn (part : Value) : Value → Prop where
  | refl : OccursIn part part
  | item {item items} (member : item ∈ items) (inside : OccursIn part item) :
      OccursIn part (.list items)
  | body {id params body} (inside : OccursIn part body) :
      OccursIn part (.closure id params body)

/-- Every closure that occurs in the value is entered in the book. -/
inductive Recorded (book : Book) : Value → Prop where
  | nil : Recorded book .nil
  | bool (b : Bool) : Recorded book (.bool b)
  | int (n : Integer) : Recorded book (.int n)
  | symbol (name : String) : Recorded book (.symbol name)
  | list {items} (recorded : ∀ item ∈ items, Recorded book item) : Recorded book (.list items)
  | closure {id params body} (entry : book[id]? = some (params, body))
      (inside : Recorded book body) : Recorded book (.closure id params body)

variable {book later : Book} {value other part : Value} {items others : List Value}

theorem OccursIn.trans {whole : Value} (inner : part.OccursIn value)
    (outer : value.OccursIn whole) : part.OccursIn whole := by
  induction outer with
  | refl => exact inner
  | item member _ ih => exact .item member ih
  | body _ ih => exact .body ih

theorem recorded_list : (list items).Recorded book ↔ ∀ item ∈ items, item.Recorded book := by
  constructor
  · rintro (_ | _ | _ | _ | recorded)
    exact recorded
  · exact .list

theorem recorded_closure {id : ClosureId} {params : List String} {body : Value} :
    (closure id params body).Recorded book ↔
      book[id]? = some (params, body) ∧ body.Recorded book := by
  constructor
  · rintro (_ | _ | _ | _ | _ | ⟨entry, inside⟩)
    exact ⟨entry, inside⟩
  · rintro ⟨entry, inside⟩
    exact .closure entry inside

theorem Recorded.occursIn (recorded : value.Recorded book) (occurs : part.OccursIn value) :
    part.Recorded book := by
  induction occurs with
  | refl => exact recorded
  | item member _ ih => exact ih (recorded_list.mp recorded _ member)
  | body _ ih => exact ih (recorded_closure.mp recorded).2

/-- An entry stays where it is when the book grows. -/
theorem Recorded.mono (recorded : value.Recorded book) (grows : book <+: later) :
    value.Recorded later := by
  induction recorded with
  | nil => exact .nil
  | bool b => exact .bool b
  | int n => exact .int n
  | symbol name => exact .symbol name
  | list _ ih => exact .list ih
  | @closure id _ _ entry _ ih =>
      obtain ⟨entries, rfl⟩ := grows
      have bound : id < book.length := (List.getElem?_eq_some_iff.mp entry).1
      exact .closure ((List.getElem?_append_left bound).trans entry) ih

section Equality

mutual

theorem same_self : (value : Value) → value.same value = true
  | .nil => rfl
  | .bool _ | .int _ | .symbol _ | .closure .. => by simp [same]
  | .list items => sameAll_self items

theorem sameAll_self : (items : List Value) → sameAll items items = true
  | [] => rfl
  | item :: items => by simp [sameAll, same_self item, sameAll_self items]

end

theorem eq_of_sameAll (equal : sameAll items others = true)
    (each : ∀ item ∈ items, ∀ other ∈ others, item.same other = true → item = other) :
    items = others := by
  induction items generalizing others with
  | nil =>
      obtain _ | ⟨_, _⟩ := others
      · rfl
      · cases equal
  | cons item items ih =>
      obtain _ | ⟨other, others⟩ := others
      · cases equal
      · rw [sameAll, Bool.and_eq_true] at equal
        have first := each item List.mem_cons_self other List.mem_cons_self equal.1
        have rest := ih equal.2 fun one member two inside =>
          each one (List.mem_cons_of_mem _ member) two (List.mem_cons_of_mem _ inside)
        rw [first, rest]

/-- Only a list is the same as a list. -/
theorem exists_of_same_list (equal : (list items).same other = true) :
    ∃ others, other = .list others ∧ sameAll items others = true := by
  cases other with
  | list others => exact ⟨others, rfl, equal⟩
  | _ => cases equal

/-- Only a closure with the same identity is the same as a closure. -/
theorem exists_of_same_closure {id : ClosureId} {params : List String} {body : Value}
    (equal : (closure id params body).same other = true) :
    ∃ params' body', other = .closure id params' body' := by
  cases other with
  | closure id' params' body' =>
      rw [same, beq_iff_eq] at equal
      exact ⟨params', body', equal ▸ rfl⟩
  | _ => cases equal

/-- The identity of a closure decides about its parameters and its body, because there is
one entry for it. -/
theorem Recorded.eq_of_same (first : value.Recorded book) (second : other.Recorded book)
    (equal : value.same other = true) : value = other := by
  induction first generalizing other with
  | nil | bool | int | symbol => cases other <;> simp_all [same]
  | list _ ih =>
      obtain ⟨others, rfl, equal⟩ := exists_of_same_list equal
      rw [eq_of_sameAll equal fun item member other found =>
        ih item member (recorded_list.mp second other found)]
  | closure entry =>
      obtain ⟨params', body', rfl⟩ := exists_of_same_closure equal
      have found := (recorded_closure.mp second).1
      rw [entry, Option.some.injEq, Prod.mk.injEq] at found
      rw [found.1, found.2]

theorem Recorded.same_iff_eq (first : value.Recorded book) (second : other.Recorded book) :
    value.same other = true ↔ value = other :=
  ⟨first.eq_of_same second, fun equal => equal ▸ same_self value⟩

end Equality

end Value

end DynamicLisp
