import DynamicLisp.Error
import Mathlib.Data.List.Forall2

/-!
# Equality up to the identities of closures

Two evaluations of one expression may hand out different identities. What they compute
is then compared up to a relation on identities: values are alike when closures stand
at the same places, have the same parameters and the same body, and have related
identities. The relation that always holds forgets identities altogether.
-/

namespace DynamicLisp

/-- Values that differ in the identities of closures only, and there as `r` says. -/
inductive Value.Alike (r : ClosureId → ClosureId → Prop) : Value → Value → Prop where
  | nil : Alike r .nil .nil
  | bool (b : Bool) : Alike r (.bool b) (.bool b)
  | int (n : Integer) : Alike r (.int n) (.int n)
  | symbol (name : String) : Alike r (.symbol name) (.symbol name)
  | list {items others : List Value} (alike : List.Forall₂ (Alike r) items others) :
      Alike r (.list items) (.list others)
  | closure {id other : ClosureId} (related : r id other) (params : List String) (body : Value) :
      Alike r (.closure id params body) (.closure other params body)

/-- Type faults that complain about alike values. -/
inductive TypeFault.Alike (r : ClosureId → ClosureId → Prop) : TypeFault → TypeFault → Prop where
  | notCallable (name : String) {bound other : Value} (alike : bound.Alike r other) :
      Alike r (.notCallable name bound) (.notCallable name other)
  | notInteger {got other : Value} (alike : got.Alike r other) :
      Alike r (.notInteger got) (.notInteger other)
  | notIntegerParameter {got other : Value} (alike : got.Alike r other) :
      Alike r (.notIntegerParameter got) (.notIntegerParameter other)
  | notList (operator : String) {got other : Value} (alike : got.Alike r other) :
      Alike r (.notList operator got) (.notList operator other)
  | notListTail {got other : Value} (alike : got.Alike r other) :
      Alike r (.notListTail got) (.notListTail other)

/-- Equal errors, and type faults that complain about alike values. -/
inductive Error.Alike (r : ClosureId → ClosureId → Prop) : Error → Error → Prop where
  | same (error : Error) : Alike r error error
  | type {fault other : TypeFault} (alike : fault.Alike r other) :
      Alike r (.type fault) (.type other)

/-- Both results are values, and then related, or both are errors, and then alike. -/
inductive ResultsAlike {α β : Type} (r : ClosureId → ClosureId → Prop) (R : α → β → Prop) :
    Except Error α → Except Error β → Prop where
  | ok {a : α} {b : β} (related : R a b) : ResultsAlike r R (.ok a) (.ok b)
  | error {error other : Error} (alike : error.Alike r other) :
      ResultsAlike r R (.error error) (.error other)

variable {r : ClosureId → ClosureId → Prop}

namespace Value.Alike

mutual

theorem refl (same : ∀ id, r id id) : (value : Value) → value.Alike r value
  | .nil => .nil
  | .bool b => .bool b
  | .int n => .int n
  | .symbol name => .symbol name
  | .list items => .list (refl_items same items)
  | .closure id params body => .closure (same id) params body

theorem refl_items (same : ∀ id, r id id) :
    (items : List Value) → List.Forall₂ (Alike r) items items
  | [] => .nil
  | item :: items => .cons (refl same item) (refl_items same items)

end

theorem isFalse_eq {value other : Value} (alike : value.Alike r other) :
    value.isFalse = other.isFalse := by
  cases alike <;> rfl

end Value.Alike

theorem Error.Alike.namedBy {error other : Error} (alike : error.Alike r other) (name : String) :
    (error.namedBy name).Alike r (other.namedBy name) := by
  cases alike with
  | same => exact .same _
  | type alike => exact .type alike

namespace ResultsAlike

variable {α β : Type} {R : α → β → Prop} {first : Except Error α} {second : Except Error β}

theorem ok_left {a : α} (results : ResultsAlike r R (.ok a) second) :
    ∃ b, second = .ok b ∧ R a b := by
  cases results with
  | ok related => exact ⟨_, rfl, related⟩

theorem error_left {error : Error} (results : ResultsAlike r R (.error error) second) :
    ∃ other, second = .error other ∧ error.Alike r other := by
  cases results with
  | error alike => exact ⟨_, rfl, alike⟩

theorem mono {S : α → β → Prop} (results : ResultsAlike r R first second)
    (imp : ∀ a b, R a b → S a b) : ResultsAlike r S first second := by
  cases results with
  | ok related => exact .ok (imp _ _ related)
  | error alike => exact .error alike

theorem map {γ δ : Type} {S : γ → δ → Prop} {f : α → γ} {g : β → δ}
    (results : ResultsAlike r R first second) (imp : ∀ a b, R a b → S (f a) (g b)) :
    ResultsAlike r S (f <$> first) (g <$> second) := by
  cases results with
  | ok related => exact .ok (imp _ _ related)
  | error alike => exact .error alike

theorem mapError_namedBy (results : ResultsAlike r R first second) (name : String) :
    ResultsAlike r R (first.mapError (Error.namedBy name))
      (second.mapError (Error.namedBy name)) := by
  cases results with
  | ok related => exact .ok related
  | error alike => exact .error (alike.namedBy name)

end ResultsAlike

end DynamicLisp
