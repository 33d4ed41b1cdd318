import DynamicLisp.Proofs.Evaluation.Adequacy
import Mathlib.Data.List.Basic
import Mathlib.Logic.Relation

/-!
# Why evaluation ends

To evaluate an expression is to go through other evaluations: of items of the
expression in the same frame, and of the body of a called closure in a frame that
is one deeper. `Demands` is this relation. A chain of demands goes down in the
room that is left for frames or, where that stays, in the size of the expression,
so there is no infinite chain.

An evaluation has an outcome as soon as everything it demands has one. Together
the two facts give every evaluation an outcome.
-/

namespace DynamicLisp

/-- An evaluation that is about to begin. -/
structure Config where
  frame : FrameId
  expr : Value
  state : State

namespace Config

/-- The depth of the frame of an evaluation. -/
def depth (c : Config) : Nat := c.state.store.depth c.frame

/-- The room that is left for frames, then the size of the expression. -/
noncomputable def weight (c : Config) : Nat × Nat := (maxDepth - c.depth, sizeOf c.expr)

/-- An item of the expression is evaluated in the same frame. -/
def GoesDown (c next : Config) : Prop :=
  next.frame = c.frame ∧ next.depth = c.depth ∧ ∃ items, c.expr = .list items ∧ next.expr ∈ items

/-- The body of the closure that the head of the expression stands for is
evaluated in a new frame directly inside the frame of the expression. -/
def GoesIn (registry : Registry) (c next : Config) : Prop :=
  next.depth = c.depth + 1 ∧ next.depth < maxDepth ∧ c.state.store.size ≤ next.frame ∧
    next.state.store.outer? next.frame = some c.frame ∧
    ∃ head operands name params, c.expr = .list (head :: operands) ∧
      registry.resolve c.state.store c.frame head = .ok (.closure name params next.expr)

end Config

/-- Evaluating the first configuration goes through evaluating the second. -/
inductive Demands (registry : Registry) : Config → Config → Prop where
  | test {f head test yes no name s}
      (resolved : registry.resolve s.store f head = .ok (.form name .choose)) :
      Demands registry ⟨f, .list [head, test, yes, no], s⟩ ⟨f, test, s⟩
  | branch {f head test yes no name value s s₁}
      (resolved : registry.resolve s.store f head = .ok (.form name .choose))
      (tested : Evaluates registry f (.expr test) s (.ok value) s₁) :
      Demands registry ⟨f, .list [head, test, yes, no], s⟩
        ⟨f, if value.isFalse then no else yes, s₁⟩
  | definition {f head signature expr name bound s}
      (resolved : registry.resolve s.store f head = .ok (.form name .define))
      (shape : SpecialForms.target signature = .ok (.value bound)) :
      Demands registry ⟨f, .list [head, signature, expr], s⟩ ⟨f, expr, s⟩
  | operand {f head before expr after operator values s s₁}
      (resolved : registry.resolve s.store f head = .ok operator)
      (eager : operator.isEager = true)
      (evaluated : Evaluates registry f (.operands before) s (.ok (.list values)) s₁) :
      Demands registry ⟨f, .list (head :: (before ++ expr :: after)), s⟩ ⟨f, expr, s₁⟩
  | body {f head operands name params body args s s₁}
      (resolved : registry.resolve s.store f head = .ok (.closure name params body))
      (evaluated : Evaluates registry f (.operands operands) s (.ok (.list args)) s₁)
      (count : params.length = args.length) (shallow : s₁.store.depth f + 1 < maxDepth) :
      Demands registry ⟨f, .list (head :: operands), s⟩
        ⟨s₁.store.size, body, s₁.enter f name params args⟩

namespace Demands

variable {registry : Registry} {c next : Config}

/-- By the time of a demanded evaluation the store has grown. -/
theorem grows (h : Demands registry c next) (present : c.frame < c.state.store.size) :
    c.state.store.Grows next.state.store := by
  cases h with
  | test | definition => exact .refl _
  | branch _ tested => exact tested.grows present
  | operand _ _ evaluated => exact evaluated.grows present
  | @body _ _ _ name params _ args _ _ _ evaluated _ shallow =>
      have before := evaluated.grows present
      exact before.trans (State.grows_enter (before.lt_size present) shallow name params args)

/-- The frame of a demanded evaluation exists. -/
theorem present (h : Demands registry c next) (present : c.frame < c.state.store.size) :
    next.frame < next.state.store.size := by
  have grows := h.grows present
  cases h with
  | test | branch | definition | operand => exact grows.lt_size present
  | body => exact State.lt_size_enter _ _ _ _ _

/-- Every demand stays in the frame with an item of the expression or goes one
frame in with the body of a closure. -/
theorem goesDown_or_goesIn (h : Demands registry c next)
    (present : c.frame < c.state.store.size) : c.GoesDown next ∨ c.GoesIn registry next := by
  cases h with
  | test resolved => exact .inl ⟨rfl, rfl, _, rfl, by simp⟩
  | branch resolved tested =>
      refine .inl ⟨rfl, (tested.grows present).depth_eq present, _, rfl, ?_⟩
      split <;> simp
  | definition resolved shape => exact .inl ⟨rfl, rfl, _, rfl, by simp⟩
  | operand resolved eager evaluated =>
      exact .inl ⟨rfl, (evaluated.grows present).depth_eq present, _, rfl, by simp⟩
  | @body f head operands name params body args s s₁ resolved evaluated count shallow =>
      have deeper : Config.depth ⟨s₁.store.size, body, s₁.enter f name params args⟩ =
          s₁.store.depth f + 1 := s₁.depth_enter f name params args
      have before := evaluated.grows present
      refine .inr ⟨?_, ?_, before.size_le, ?_, head, operands, name, params, rfl, resolved⟩
      · rw [deeper, before.depth_eq present]
        rfl
      · rw [deeper]
        exact shallow
      · simp [Store.outer?, State.callee]

/-- Demands go down in weight. -/
theorem weight_lt (h : Demands registry c next) (present : c.frame < c.state.store.size) :
    Prod.Lex (· < ·) (· < ·) next.weight c.weight := by
  obtain ⟨_, same, items, shape, member⟩ | ⟨deeper, shallow, _⟩ := h.goesDown_or_goesIn present
  · rw [Config.weight, Config.weight, same, shape]
    apply Prod.Lex.right
    have smaller := List.sizeOf_lt_of_mem member
    simp only [Value.list.sizeOf_spec]
    omega
  · apply Prod.Lex.left
    omega

end Demands

theorem Config.present_of_demands {registry : Registry} {c later : Config}
    (steps : Relation.ReflTransGen (Demands registry) c later)
    (present : c.frame < c.state.store.size) : later.frame < later.state.store.size := by
  induction steps with
  | refl => exact present
  | tail _ h ih => exact h.present ih

/-- No infinite chain of demands starts in a frame that exists. -/
theorem Config.acc_demands {registry : Registry} {c : Config}
    (present : c.frame < c.state.store.size) :
    Acc (fun inner outer => Demands registry outer inner) c := by
  have order : WellFounded (Prod.Lex (· < ·) (· < ·) : Nat × Nat → Nat × Nat → Prop) :=
    (Prod.lex Nat.lt_wfRel Nat.lt_wfRel).wf
  generalize weight : c.weight = w
  induction w using order.induction generalizing c with
  | _ w ih =>
      constructor
      intro next h
      exact ih next.weight (weight ▸ h.weight_lt present) (h.present present) rfl

/-- Some outcome of a task can be derived. -/
def Ends (registry : Registry) (f : FrameId) (task : Task) (s : State) : Prop :=
  ∃ outcome s', Evaluates registry f task s outcome s'

/-- The evaluation of a configuration has an outcome. -/
def Config.Ends (registry : Registry) (c : Config) : Prop :=
  DynamicLisp.Ends registry c.frame (.expr c.expr) c.state

section Progress

variable {registry : Registry} {f : FrameId} {head : Value} {operands : List Value} {s : State}

/-- Operands that are evaluated one after the other are evaluated together. -/
theorem Evaluates.operands_append {before after : List Value} {values later : List Value}
    {s s₁ s₂ : State} (first : Evaluates registry f (.operands before) s (.ok (.list values)) s₁)
    (second : Evaluates registry f (.operands after) s₁ (.ok (.list later)) s₂) :
    Evaluates registry f (.operands (before ++ after)) s (.ok (.list (values ++ later))) s₂ := by
  induction before generalizing s values with
  | nil =>
      cases first
      exact second
  | cons expr before ih =>
      cases first with
      | operands one rest => exact .operands one (ih rest)

/-- If every operand that is demanded has an outcome, so have the operands that
are left after some were evaluated. -/
theorem ends_operands {operator : Operator} {before after values : List Value} {s₁ : State}
    (resolved : registry.resolve s.store f head = .ok operator)
    (eager : operator.isEager = true)
    (demanded : ∀ next, Demands registry ⟨f, .list (head :: (before ++ after)), s⟩ next →
      next.Ends registry)
    (evaluated : Evaluates registry f (.operands before) s (.ok (.list values)) s₁) :
    ∃ (result : Except Error (List Value)) (s₂ : State),
      Evaluates registry f (.operands after) s₁ (result.map .list) s₂ := by
  -- Induction on the operands that are left; each one moves over to those evaluated before.
  induction after generalizing before values s₁ with
  | nil => exact ⟨.ok [], s₁, .noOperands⟩
  | cons expr after ih =>
      obtain ⟨outcome, s₂, first⟩ := demanded _ (.operand resolved eager evaluated)
      cases outcome with
      | error error => exact ⟨.error error, s₂, .firstFails first⟩
      | ok value =>
          have longer : Evaluates registry f (.operands (before ++ [expr])) s
              (.ok (.list (values ++ [value]))) s₂ :=
            evaluated.operands_append (.operands first .noOperands)
          obtain ⟨result, s₃, later⟩ := ih (by simpa using demanded) longer
          cases result with
          | error error => exact ⟨.error error, s₃, .laterFails first later⟩
          | ok values => exact ⟨.ok (value :: values), s₃, .operands first later⟩

/-- A special form has an outcome if the evaluations it demands have one. -/
theorem ends_form {name : String} {form : SpecialForm} (standard : registry.UsesStandardForms)
    (resolved : registry.resolve s.store f head = .ok (.form name form))
    (demanded : ∀ next, Demands registry ⟨f, .list (head :: operands), s⟩ next →
      next.Ends registry) :
    Ends registry f (.expr (.list (head :: operands))) s := by
  cases count : form.arity.admits operands.length with
  | false => exact ⟨_, _, .wrongCount resolved count⟩
  | true =>
      obtain rfl | rfl | rfl | rfl := standard name form (Registry.find?_form_of_resolve resolved)
      · obtain ⟨expr, rfl⟩ : ∃ expr, operands = [expr] :=
          List.length_eq_one_iff.mp (by simpa [SpecialForm.quote, Arity.admits] using count)
        exact ⟨_, _, .quote resolved⟩
      · obtain ⟨test, yes, no, rfl⟩ : ∃ test yes no, operands = [test, yes, no] :=
          List.length_eq_three.mp (by simpa [SpecialForm.choose, Arity.admits] using count)
        obtain ⟨outcome, s₁, tested⟩ := demanded _ (.test resolved)
        cases outcome with
        | error error => exact ⟨_, _, .testFails resolved tested⟩
        | ok value =>
            obtain ⟨outcome, s₂, chosen⟩ := demanded _ (.branch resolved tested)
            exact ⟨_, _, .choose resolved tested chosen⟩
      · obtain ⟨signature, expr, rfl⟩ : ∃ signature expr, operands = [signature, expr] :=
          List.length_eq_two.mp (by simpa [SpecialForm.define, Arity.admits] using count)
        cases shape : SpecialForms.target signature with
        | error error => exact ⟨_, _, .malformedTarget resolved shape⟩
        | ok target =>
            cases target with
            | function bound params => exact ⟨_, _, .defineFunction resolved shape⟩
            | value bound =>
                obtain ⟨outcome, s₁, evaluated⟩ := demanded _ (.definition resolved shape)
                cases outcome with
                | error error => exact ⟨_, _, .definitionFails resolved shape evaluated⟩
                | ok value => exact ⟨_, _, .defineValue resolved shape evaluated⟩
      · obtain ⟨names, body, rfl⟩ : ∃ names body, operands = [names, body] :=
          List.length_eq_two.mp (by simpa [SpecialForm.lambda, Arity.admits] using count)
        cases shape : SpecialForms.parameters names with
        | error error => exact ⟨_, _, .malformedParameters resolved shape⟩
        | ok params => exact ⟨_, _, .lambda resolved shape⟩

/-- A list has an outcome if the evaluations it demands have one. -/
theorem ends_list (standard : registry.UsesStandardForms)
    (respects : registry.RespectsFrames s.store) (present : f < s.store.size)
    (demanded : ∀ next, Demands registry ⟨f, .list (head :: operands), s⟩ next →
      next.Ends registry) :
    Ends registry f (.expr (.list (head :: operands))) s := by
  cases resolved : registry.resolve s.store f head with
  | error error => exact ⟨_, _, .unresolved resolved⟩
  | ok operator =>
      cases operator with
      | form name form => exact ends_form standard resolved demanded
      | primitive name primitive =>
          obtain ⟨result, s₁, evaluated⟩ :=
            ends_operands resolved rfl (by simpa using demanded) .noOperands
          cases result with
          | error error => exact ⟨_, _, .operandFails resolved rfl evaluated⟩
          | ok args =>
              have before := evaluated.grows present
              exact ⟨_, _, .primitive resolved evaluated rfl
                ((respects.later before).grows resolved (before.lt_size present) rfl)⟩
      | closure name params body =>
          obtain ⟨result, s₁, evaluated⟩ :=
            ends_operands resolved rfl (by simpa using demanded) .noOperands
          cases result with
          | error error => exact ⟨_, _, .operandFails resolved rfl evaluated⟩
          | ok args =>
              by_cases count : params.length = args.length
              · by_cases shallow : s₁.store.depth f + 1 < maxDepth
                · obtain ⟨outcome, s₂, ran⟩ := demanded _ (.body resolved evaluated count shallow)
                  exact ⟨_, _, .call resolved evaluated count shallow ran⟩
                · exact ⟨_, _, .callTooDeep resolved evaluated count (Nat.not_lt.mp shallow)⟩
              · exact ⟨_, _, .callCount resolved evaluated count⟩

/-- An evaluation has an outcome if the evaluations it demands have one. -/
theorem Config.ends_of_demands (standard : registry.UsesStandardForms) (c : Config)
    (respects : registry.RespectsFrames c.state.store) (present : c.frame < c.state.store.size)
    (demanded : ∀ next, Demands registry c next → next.Ends registry) : c.Ends registry := by
  obtain ⟨f, expr, s⟩ := c
  cases expr with
  | symbol name =>
      cases found : s.store.get? f name with
      | none => exact ⟨_, _, .unbound found⟩
      | some value => exact ⟨_, _, .bound found⟩
  | list items =>
      cases items with
      | nil => exact ⟨_, _, .itself rfl⟩
      | cons head operands => exact ends_list standard respects present demanded
  | nil | bool | int | closure => exact ⟨_, _, .itself rfl⟩

/-- Every evaluation in a frame that exists has an outcome. -/
theorem Config.ends {c : Config} (standard : registry.UsesStandardForms)
    (respects : registry.RespectsFrames c.state.store) (present : c.frame < c.state.store.size) :
    c.Ends registry := by
  have accessible : Acc (fun inner outer => Demands registry outer inner) c :=
    c.acc_demands present
  induction accessible with
  | intro c _ ih =>
      apply c.ends_of_demands standard respects present
      intro next h
      exact ih next h (respects.later (h.grows present)) (h.present present)

end Progress

end DynamicLisp
