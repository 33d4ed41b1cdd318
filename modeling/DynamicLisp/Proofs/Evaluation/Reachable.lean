import DynamicLisp.Proofs.Evaluation.Demand
import DynamicLisp.Proofs.StandardRegistry

/-!
# Reachable stores

A program that embeds the interpreter can open frames, bind names in them,
evaluate expressions and call closures, in any order and whether or not an earlier
step failed, and with primitives of its own that do the same. The stores it can get to
in this way are the reachable ones. They are all well formed, which is what the theory
of evaluation asks of a store.
-/

namespace DynamicLisp

/-- A step of a program that embeds the interpreter. -/
inductive Operation where
  | root
  | openFrame (params : List String) (args : List Value) (outer : Option FrameId)
  | nest (count : Nat) (f : FrameId)
  | set (f : FrameId) (name : String) (value : Value)
  | eval (registry : Registry) (f : FrameId) (expr : Value)
  | call (registry : Registry) (f : FrameId) (params : List String) (body : Value)
      (args : List Value)

namespace Operation

/-- A step can only name frames that exist, and evaluates with the standard special
forms and with primitives that respect frames. -/
def Admissible (store : Store) : Operation → Prop
  | root => True
  | openFrame _ _ outer => ∀ f, outer = some f → f < store.size
  | nest _ f => f < store.size
  | set f _ _ => f < store.size
  | eval registry f _ =>
    registry.UsesStandardForms ∧ registry.RespectsFrames store ∧ f < store.size
  | call registry f _ _ _ =>
    registry.UsesStandardForms ∧ registry.RespectsFrames store ∧ f < store.size

/-- The state after a step, whether it succeeds or fails. -/
def run : Operation → State → State
  | root, s => (Eval.newRoot.outcome s).2
  | openFrame params args outer, s => ((Eval.openFrame params args outer).outcome s).2
  | nest count f, s => ((Eval.nest count f).outcome s).2
  | set f name value, s => ((Eval.assign f name value).outcome s).2
  | eval registry f expr, s => ((registry.eval f expr).outcome s).2
  | call registry f params body args, s => ((registry.call f params body args).outcome s).2

end Operation

/-- The stores that some sequence of steps leads to. Nothing is assumed about the
closure identities that were used up or the records that were left in between. -/
inductive Store.Reachable : Store → Prop where
  | empty : Reachable ⟨#[]⟩
  | step (operation : Operation) (s : State) (earlier : Reachable s.store)
      (admissible : operation.Admissible s.store) : Reachable (operation.run s).store

section Growth

variable {s : State} {f : FrameId}

theorem Eval.openFrame_grows (params : List String) (args : List Value) {outer : Option FrameId}
    (present : ∀ f, outer = some f → f < s.store.size) :
    s.store.Grows ((openFrame params args outer).outcome s).2.store := by
  by_cases count : params.length = args.length
  · by_cases shallow : s.store.depthUnder outer < maxDepth
    · simp only [outcome, openFrame, count, shallow, if_true]
      apply Store.Grows.push
      cases outer with
      | none => exact Store.placed_root _ _
      | some f => exact Store.placed_under (present f rfl) shallow _
    · simpa [outcome, openFrame, count, shallow] using Store.Grows.refl _
  · simpa [outcome, openFrame, count] using Store.Grows.refl _

/-- Opening frames inside one another goes on in the frame that was opened first. -/
theorem Eval.outcome_nest_succ (room : s.store.depth f + 1 < maxDepth) (count : Nat) :
    (nest (count + 1) f).outcome s =
      (nest count s.store.size).outcome (s.push ⟨.empty, some f, s.store.depth f + 1⟩) := by
  simp only [outcome, nest, openFrame, Store.depthUnder, room, if_true]
  rfl

theorem Eval.nest_grows (present : f < s.store.size) (count : Nat) :
    s.store.Grows ((nest count f).outcome s).2.store := by
  induction count generalizing f s with
  | zero => exact .refl _
  | succ count ih =>
      by_cases shallow : s.store.depth f + 1 < maxDepth
      · rw [outcome_nest_succ shallow]
        have opened : s.store.Grows (s.push ⟨.empty, some f, s.store.depth f + 1⟩).store :=
          .push (Store.placed_under present shallow .empty)
        exact opened.trans (ih (by simp [State.push]))
      · simpa [outcome, nest, openFrame, Store.depthUnder, shallow] using Store.Grows.refl _

/-- The evaluator gives an outcome, and the rules derive it. -/
theorem Registry.eval_outcome {registry : Registry} (standard : registry.UsesStandardForms)
    (respects : registry.RespectsFrames s.store) (present : f < s.store.size) (expr : Value) :
    ∃ outcome s', (registry.eval f expr).outcome s = (outcome, s') ∧
      Evaluates registry f (.expr expr) s outcome s' := by
  have ends : Config.Ends registry ⟨f, expr, s⟩ := Config.ends standard respects present
  obtain ⟨outcome, s', h⟩ := ends
  exact ⟨outcome, s', h.eval_eq present, h⟩

theorem Registry.standard_outcome (present : f < s.store.size) (expr : Value) :
    ∃ outcome s', (standard.eval f expr).outcome s = (outcome, s') ∧
      Evaluates .standard f (.expr expr) s outcome s' :=
  eval_outcome standard_usesStandardForms standard_respectsFrames present expr

/-- A call is refused for the number of its arguments or for its depth, or else the body
is evaluated in a new frame. -/
theorem Registry.call_outcome {registry : Registry} (standard : registry.UsesStandardForms)
    (respects : registry.RespectsFrames s.store) (present : f < s.store.size)
    (params : List String) (body : Value) (args : List Value) :
    (registry.call f params body args).outcome s =
        (.error (.arity (.exact params.length) args.length none), s) ∨
      maxDepth ≤ s.store.depth f + 1 ∧ (registry.call f params body args).outcome s =
        (.error (.stackLimit (s.store.depth f + 1)),
          s.record (.refused (s.store.depth f + 1))) ∨
      s.store.depth f + 1 < maxDepth ∧ ∃ outcome s',
        (registry.call f params body args).outcome s = (outcome, s') ∧
          Evaluates registry s.store.size (.expr body) (s.enter f none params args) outcome s' := by
  by_cases count : params.length = args.length
  · by_cases shallow : s.store.depth f + 1 < maxDepth
    · rw [call, callClosure_opened count shallow]
      exact .inr (.inr ⟨shallow, eval_outcome standard
        (respects.later (State.grows_enter present shallow none params args))
        (s.lt_size_enter f none params args) body⟩)
    · have deep := Nat.not_lt.mp shallow
      exact .inr (.inl ⟨deep, callClosure_tooDeep count deep⟩)
  · exact .inl (callClosure_wrongCount count)

theorem Registry.eval_grows {registry : Registry} (standard : registry.UsesStandardForms)
    (respects : registry.RespectsFrames s.store) (present : f < s.store.size) (expr : Value) :
    s.store.Grows ((registry.eval f expr).outcome s).2.store := by
  obtain ⟨outcome, s', ran, h⟩ := eval_outcome standard respects present expr
  rw [ran]
  exact h.grows present

theorem Registry.call_grows {registry : Registry} (standard : registry.UsesStandardForms)
    (respects : registry.RespectsFrames s.store) (present : f < s.store.size)
    (params : List String) (body : Value) (args : List Value) :
    s.store.Grows ((registry.call f params body args).outcome s).2.store := by
  obtain ran | ⟨_, ran⟩ | ⟨shallow, outcome, s', ran, h⟩ :=
    call_outcome standard respects present params body args
  · rw [ran]
    exact .refl _
  · rw [ran]
    exact .refl _
  · rw [ran]
    have entered := State.grows_enter present shallow none params args
    exact entered.trans (h.grows (s.lt_size_enter f none params args))

/-- Every step lets the store grow. -/
theorem Operation.run_grows (operation : Operation) (admissible : operation.Admissible s.store) :
    s.store.Grows (operation.run s).store := by
  cases operation with
  | root => exact .push (Store.placed_root _ _)
  | openFrame params args outer => exact Eval.openFrame_grows params args admissible
  | nest count f => exact Eval.nest_grows admissible count
  | set f name value => exact .set f s.store name value
  | eval registry f expr =>
      obtain ⟨standard, respects, present⟩ := admissible
      exact registry.eval_grows standard respects present expr
  | call registry f params body args =>
      obtain ⟨standard, respects, present⟩ := admissible
      exact registry.call_grows standard respects present params body args

/-- Steps lead from the first store to the second. Nothing is assumed about the rest of
the state in between. -/
def Store.StepsTo : Store → Store → Prop :=
  Relation.ReflTransGen fun before after =>
    ∃ (operation : Operation) (s : State), s.store = before ∧ operation.Admissible before ∧
      after = (operation.run s).store

theorem Store.StepsTo.grows {before after : Store} (steps : before.StepsTo after) :
    before.Grows after := by
  induction steps with
  | refl => exact .refl _
  | tail _ step ih =>
      obtain ⟨operation, s, rfl, admissible, rfl⟩ := step
      exact ih.trans (operation.run_grows admissible)

/-- A primitive that does to the store what an embedding program can do, with steps that
may depend on everything it sees, respects frames. -/
theorem Primitive.respectsFrames_of_stepsTo {primitive : Primitive} {store : Store}
    (acts : ∀ f args (s : State), store.Grows s.store → f < s.store.size →
      s.store.StepsTo ((primitive.run f args).outcome s).2.store) :
    primitive.RespectsFrames store :=
  fun f args s since present => (acts f args s since present).grows

theorem Store.Reachable.wellFormed {store : Store} (reachable : store.Reachable) :
    store.WellFormed := by
  induction reachable with
  | empty => exact Store.wellFormed_empty
  | step operation s _ admissible formed => exact (operation.run_grows admissible).wellFormed formed

/-- A new interpreter starts from a reachable store. -/
theorem Store.reachable_initial : Store.initial.Reachable :=
  .step .root ⟨⟨#[]⟩, 0, #[]⟩ .empty trivial

end Growth

end DynamicLisp
