import DynamicLisp.Registry

/-!
# Outcomes of actions

An action is known by its outcomes: the result, or the error, and the state it leaves
from each state. What follows says how the outcomes of actions that are made from other
actions depend on theirs.
-/

namespace DynamicLisp

namespace Eval

variable {α β : Type} {action : Eval α} {next : α → Eval β} {s s' : State}

theorem outcome_pure (a : α) (s : State) : (pure a : Eval α).outcome s = (.ok a, s) :=
  rfl

theorem outcome_bind_ok {a : α} (h : action.outcome s = (.ok a, s')) :
    (action >>= next).outcome s = (next a).outcome s' := by
  unfold outcome at h
  split at h
  · next ran =>
    obtain ⟨rfl, rfl⟩ : _ = a ∧ _ = s' := by simpa using h
    simp only [outcome, bind, EStateM.bind, ran]
  · simp at h

theorem outcome_bind_error {error : Error} (h : action.outcome s = (.error error, s')) :
    (action >>= next).outcome s = (.error error, s') := by
  unfold outcome at h
  split at h
  · simp at h
  · next ran =>
    obtain ⟨rfl, rfl⟩ : _ = error ∧ _ = s' := by simpa using h
    simp only [outcome, bind, EStateM.bind, ran]

theorem outcome_map (f : α → β) (action : Eval α) (s : State) :
    (f <$> action).outcome s = ((action.outcome s).1.map f, (action.outcome s).2) := by
  cases ran : action s <;> simp [outcome, Functor.map, EStateM.map, ran, Except.map]

theorem outcome_ofExcept (result : Except Error α) (s : State) :
    (ofExcept result).outcome s = (result, s) := by
  cases result <;> rfl

theorem outcome_mapError (rename : Error → Error) (action : Eval α) (s : State) :
    (mapError rename action).outcome s =
      ((action.outcome s).1.mapError rename, (action.outcome s).2) := by
  cases ran : action s <;> simp only [outcome, mapError, ran] <;> rfl

theorem outcome_lookup_some {f : FrameId} {name : String} {value : Value}
    (found : s.store.get? f name = some value) :
    (lookup f name).outcome s = (.ok value, s) := by
  simp [outcome, lookup, found]

theorem outcome_lookup_none {f : FrameId} {name : String}
    (missing : s.store.get? f name = none) :
    (lookup f name).outcome s = (.error (.unbound name), s) := by
  simp [outcome, lookup, missing]

end Eval

/-- A primitive that is given the wrong number of arguments does not run. -/
theorem Primitive.outcome_runChecked (primitive : Primitive) (f : FrameId) (args : List Value)
    (s : State) :
    (primitive.runChecked f args).outcome s =
      if primitive.arity.admits args.length then (primitive.run f args).outcome s
      else (.error (.arity primitive.arity args.length none), s) := by
  rw [runChecked, Arity.check]
  split <;> rfl

end DynamicLisp
