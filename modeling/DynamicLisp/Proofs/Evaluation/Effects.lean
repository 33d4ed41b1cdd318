import DynamicLisp.Proofs.Evaluation.Actions
import DynamicLisp.Proofs.Evaluation.Rules
import DynamicLisp.Proofs.Store.Frames
import DynamicLisp.Proofs.Table

/-!
# What evaluation does to the store

The four special forms open frames and write the frame they are evaluated in.
Primitives come from outside. A primitive respects frames if all it does to the store
is to open frames and to bind names; then so it is with evaluation, and stores stay
well formed. A primitive may also leave frames alone; then evaluation in a frame writes
that frame and no other.

All of this holds of failing evaluations too, since the state that an error leaves is
part of the relation.
-/

namespace DynamicLisp

namespace State

variable (s : State) (f : FrameId)

@[simp] theorem store_record (event : Record) : (s.record event).store = s.store := rfl

@[simp] theorem store_define (name : String) (value : Value) :
    (s.define f name value).store = s.store.set f name value := rfl

@[simp] theorem store_defineFunction (name : String) (params : List String) (body : Value) :
    (s.defineFunction f name params body).store =
      s.store.set f name (.closure s.supply params body) := rfl

@[simp] theorem store_enter (name : Option String) (params : List String) (args : List Value) :
    (s.enter f name params args).store = s.store.push (s.callee f params args) := rfl

/-- The frame of a call stands at the end of the store. -/
theorem lt_size_enter (name : Option String) (params : List String) (args : List Value) :
    s.store.size < (s.enter f name params args).store.size := by
  simp

@[simp] theorem depth_enter (name : Option String) (params : List String) (args : List Value) :
    (s.enter f name params args).store.depth s.store.size = s.store.depth f + 1 := by
  rw [store_enter, Store.depth_push_new, callee]

end State

namespace Primitive

/-- From `store` on, the primitive acts on frames only by opening new ones and by
binding names. It may do so wherever it likes, and through an evaluator of its own. -/
def RespectsFrames (primitive : Primitive) (store : Store) : Prop :=
  ∀ f args (s : State), store.Grows s.store → f < s.store.size →
    s.store.Grows ((primitive.run f args).outcome s).2.store

/-- The primitive does not touch frames. It may look at them. -/
def LeavesFrames (primitive : Primitive) : Prop :=
  ∀ f args s, ((primitive.run f args).outcome s).2.store = s.store

variable {primitive : Primitive} {f : FrameId} {args : List Value} {s s' : State}
variable {result : Except Error Value}

theorem RespectsFrames.of_runChecked (respects : primitive.RespectsFrames s.store)
    (present : f < s.store.size) (ran : (primitive.runChecked f args).outcome s = (result, s')) :
    s.store.Grows s'.store := by
  rw [outcome_runChecked] at ran
  split at ran
  · have grows := respects f args s (.refl _) present
    rwa [ran] at grows
  · cases ran
    exact .refl _

theorem LeavesFrames.of_runChecked (leaves : primitive.LeavesFrames)
    (ran : (primitive.runChecked f args).outcome s = (result, s')) : s'.store = s.store := by
  rw [outcome_runChecked] at ran
  split at ran
  · have same := leaves f args s
    rwa [ran] at same
  · cases ran
    rfl

theorem LeavesFrames.respectsFrames (leaves : primitive.LeavesFrames) (store : Store) :
    primitive.RespectsFrames store := by
  intro f args s _ _
  rw [leaves f args s]
  exact .refl _

end Primitive

namespace Registry

/-- From `store` on, every primitive of the registry respects frames. -/
def RespectsFrames (registry : Registry) (store : Store) : Prop :=
  ∀ name primitive, registry.primitives.find? name = some primitive →
    primitive.RespectsFrames store

/-- No primitive of the registry touches frames. -/
def LeavesFrames (registry : Registry) : Prop :=
  ∀ name primitive, registry.primitives.find? name = some primitive → primitive.LeavesFrames

variable {registry : Registry} {store after : Store} {f : FrameId} {head : Value} {name : String}
variable {primitive : Primitive} {args : List Value} {result : Except Error Value} {s s' : State}

/-- What respects frames goes on to do so. -/
theorem RespectsFrames.later (respects : registry.RespectsFrames store)
    (grows : store.Grows after) : registry.RespectsFrames after :=
  fun name primitive found f args s since =>
    respects name primitive found f args s (grows.trans since)

theorem RespectsFrames.grows (respects : registry.RespectsFrames s.store)
    (resolved : registry.resolve store f head = .ok (.primitive name primitive))
    (present : f < s.store.size) (ran : (primitive.runChecked f args).outcome s = (result, s')) :
    s.store.Grows s'.store :=
  (respects name primitive (find?_primitive_of_resolve resolved)).of_runChecked present ran

theorem LeavesFrames.store_eq (leaves : registry.LeavesFrames)
    (resolved : registry.resolve store f head = .ok (.primitive name primitive))
    (ran : (primitive.runChecked f args).outcome s = (result, s')) : s'.store = s.store :=
  (leaves name primitive (find?_primitive_of_resolve resolved)).of_runChecked ran

theorem RespectsFrames.withPrimitive (respects : registry.RespectsFrames store)
    (added : primitive.RespectsFrames store) (name : String) :
    (registry.withPrimitive name primitive).RespectsFrames store := by
  intro called other found
  rw [Registry.withPrimitive, Table.find?_insert] at found
  split at found
  · exact Option.some.inj found ▸ added
  · exact respects called other found

theorem LeavesFrames.respectsFrames (leaves : registry.LeavesFrames) (store : Store) :
    registry.RespectsFrames store :=
  fun name primitive found => (leaves name primitive found).respectsFrames store

end Registry

/-- Opening the frame of a call. -/
theorem State.grows_enter {s : State} {f : FrameId} (present : f < s.store.size)
    (shallow : s.store.depth f + 1 < maxDepth) (name : Option String) (params : List String)
    (args : List Value) : s.store.Grows (s.enter f name params args).store :=
  .push (Store.placed_under present shallow _)

namespace Evaluates

variable {registry : Registry} {f : FrameId} {task : Task} {s s' : State}
variable {outcome : Except Error Value}

/-- Evaluation acts on frames only by opening new ones and by binding names. -/
theorem grows (h : Evaluates registry f task s outcome s') (present : f < s.store.size) :
    s.store.Grows s'.store := by
  induction h with
  | bound | unbound | itself | unresolved | wrongCount | quote | lambda | noOperands
  | malformedTarget | malformedParameters => exact .refl _
  | testFails _ _ ih | definitionFails _ _ _ ih | operandFails _ _ _ ih | firstFails _ ih
  | callCount _ _ _ ih | callTooDeep _ _ _ _ ih => exact ih present
  | primitive _ _ _ grows ih => exact (ih present).trans grows
  | choose _ _ _ first second | laterFails _ _ first second | operands _ _ first second =>
      have middle := first present
      exact middle.trans (second (middle.lt_size present))
  | defineValue _ _ _ ih => exact (ih present).trans (.set _ _ _ _)
  | defineFunction => exact .set _ _ _ _
  | @call _ _ _ name params _ args _ _ _ _ _ _ _ shallow _ evaluated ran =>
      have first := evaluated present
      have entered := State.grows_enter (first.lt_size present) shallow name params args
      exact (first.trans entered).trans (ran (State.lt_size_enter _ _ _ _ _))

/-- Evaluation keeps the store well formed. -/
theorem wellFormed (h : Evaluates registry f task s outcome s') (present : f < s.store.size)
    (formed : s.store.WellFormed) : s'.store.WellFormed :=
  (h.grows present).wellFormed formed

/-- With primitives that leave frames alone, evaluation in a frame writes no other frame
that was there before. -/
theorem writesOnly (h : Evaluates registry f task s outcome s')
    (leaves : registry.LeavesFrames) : Store.WritesOnly f s.store s'.store := by
  induction h with
  | bound | unbound | itself | unresolved | wrongCount | quote | lambda | noOperands
  | malformedTarget | malformedParameters => exact .refl _ _
  | testFails _ _ ih | definitionFails _ _ _ ih | operandFails _ _ _ ih | firstFails _ ih
  | callCount _ _ _ ih | callTooDeep _ _ _ _ ih => exact ih
  | primitive resolved _ ran _ ih =>
      rw [leaves.store_eq resolved ran]
      exact ih
  | choose _ _ _ first second | laterFails _ _ first second | operands _ _ first second =>
      exact first.trans second
  | defineValue _ _ _ ih => exact ih.trans (.set _ _ _ _)
  | defineFunction => exact .set _ _ _ _
  | call _ _ _ _ _ evaluated ran => exact evaluated.trans (ran.of_inner _)

end Evaluates

end DynamicLisp
