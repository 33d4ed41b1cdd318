import DynamicLisp.Proofs.Evaluation.Reachable
import DynamicLisp.Proofs.StandardRegistry

/-!
# Evaluation always ends

In a reachable store every evaluation comes to an outcome, whatever the program
does, and whatever the primitives do as long as they respect frames. The bound on the
depth of frames is what stops a runaway recursion, and the number of levels that the
evaluator provides is never used up.
-/

namespace DynamicLisp

/-- Evaluation ends with the standard special forms and with any primitives that respect
frames, whatever else they do. Every chain of evaluations inside one another is finite:
each step either takes an item of the expression in the same frame, or the body of a
closure in a new frame that is one deeper and not too deep. The rules derive one outcome,
and the evaluator computes it with any number of levels from `maxDepth` on. -/
theorem evaluation_ends {registry : Registry} (standard : registry.UsesStandardForms) {s : State}
    (reachable : s.store.Reachable) (respects : registry.RespectsFrames s.store) {f : FrameId}
    (present : f < s.store.size) (expr : Value) :
    s.store.depth f < maxDepth ∧
      Acc (fun inner outer => Demands registry outer inner) ⟨f, expr, s⟩ ∧
      (∀ c next, Relation.ReflTransGen (Demands registry) ⟨f, expr, s⟩ c →
        Demands registry c next → c.GoesDown next ∨ c.GoesIn registry next) ∧
      ∃ outcome s',
        (∀ outcome' s'', Evaluates registry f (.expr expr) s outcome' s'' ↔
          outcome' = outcome ∧ s'' = s') ∧
        (registry.eval f expr).outcome s = (outcome, s') ∧
        ∀ levels, maxDepth ≤ levels →
          (registry.evalWithin levels f expr).outcome s = (outcome, s') := by
  refine ⟨reachable.wellFormed.depth_lt present, Config.acc_demands present, ?_, ?_⟩
  · intro c next steps h
    exact h.goesDown_or_goesIn (Config.present_of_demands steps present)
  · obtain ⟨outcome, s', computed, h⟩ := Registry.eval_outcome standard respects present expr
    refine ⟨outcome, s', ?_, computed, fun levels enough => h.evalWithin_eq present enough⟩
    intro outcome' s''
    constructor
    · exact h.unique present
    · rintro ⟨rfl, rfl⟩
      exact h

/-- A closure that calls the closure it is given on itself. -/
def Value.selfCaller (id : ClosureId) : Value :=
  .closure id ["x"] (.list [.symbol "x", .symbol "x"])

/-- A primitive with an evaluator of its own. It applies its first argument to the others
in the frame of the call and binds the result to `it` there. -/
def Primitive.invoke : Primitive where
  arity := .any
  run f args := do
    let value ← Registry.standard.eval f (.list args)
    Eval.assign f "it" value
    return value

theorem Primitive.invoke_respectsFrames (store : Store) : invoke.RespectsFrames store := by
  apply respectsFrames_of_stepsTo
  intro f args s _ present
  have evaluates : Operation.Admissible s.store (.eval .standard f (.list args)) :=
    ⟨Registry.standard_usesStandardForms, Registry.standard_respectsFrames, present⟩
  cases ran : (Registry.standard.eval f (.list args)).outcome s with
  | mk result s₁ =>
      have evaluated : s.store.StepsTo s₁.store :=
        .single ⟨.eval .standard f (.list args), s, rfl, evaluates, by rw [Operation.run, ran]⟩
      cases result with
      | error error =>
          rw [invoke, Eval.outcome_bind_error ran]
          exact evaluated
      | ok value =>
          rw [invoke, Eval.outcome_bind_ok ran]
          exact evaluated.tail
            ⟨.set f "it" value, s₁, rfl, evaluated.grows.lt_size present, rfl⟩

/-- Called without arguments, it binds `it` to the empty list. -/
theorem Primitive.outcome_invoke_nil {s : State} {f : FrameId} (present : f < s.store.size) :
    (invoke.run f []).outcome s = (.ok (.list []), s.set f "it" (.list [])) := by
  have itself : Evaluates .standard f (.expr (.list [])) s (.ok (.list [])) s := .itself rfl
  rw [invoke, Eval.outcome_bind_ok (itself.eval_eq present)]
  rfl

/-- Self-application would run forever without the bound on frames. Here it does not even
start in the evaluation itself, but in a primitive, which writes the frame it is called
from. -/
theorem evaluation_ends_selfApplication :
    let registry := Registry.standard.withPrimitive "invoke" .invoke
    let expr := Value.list [.symbol "invoke", .selfCaller 0, .selfCaller 1]
    registry.UsesStandardForms ∧ State.initial.store.Reachable ∧
      registry.RespectsFrames State.initial.store ∧ 0 < State.initial.store.size ∧
      (Primitive.invoke.run 0 []).outcome .initial =
        (.ok (.list []), State.initial.set 0 "it" (.list [])) ∧
      ∃ outcome s', Evaluates registry 0 (.expr expr) .initial outcome s' ∧
        (registry.eval 0 expr).outcome .initial = (outcome, s') := by
  intro registry expr
  have standard : registry.UsesStandardForms :=
    Registry.standard_usesStandardForms.withPrimitive "invoke" .invoke
  have respects : registry.RespectsFrames State.initial.store :=
    Registry.standard_respectsFrames.withPrimitive (Primitive.invoke_respectsFrames _) "invoke"
  have present : 0 < State.initial.store.size := by decide
  obtain ⟨_, _, _, outcome, s', rules, computed, _⟩ :=
    evaluation_ends standard Store.reachable_initial respects present expr
  exact ⟨standard, Store.reachable_initial, respects, present,
    Primitive.outcome_invoke_nil present, outcome, s',
    (rules outcome s').mpr ⟨rfl, rfl⟩, computed⟩

end DynamicLisp
