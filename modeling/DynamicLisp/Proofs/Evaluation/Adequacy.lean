import DynamicLisp.Proofs.Evaluation.Effects

/-!
# The evaluator follows the rules

Whatever the rules derive, the evaluator computes, provided it has a level for
every call that can still be nested: `maxDepth` less the depth of the frame. The
rules make no mention of levels, so beyond that number levels change nothing.
-/

namespace DynamicLisp

namespace Registry

variable {registry : Registry} {inner : Inner} {f : FrameId} {head : Value}
variable {operands : List Operand} {name : String} {s : State}

/-- A head that stands for nothing fails before its operands are evaluated. -/
theorem apply_unresolved {error : Error}
    (resolved : registry.resolve s.store f head = .error error) :
    (registry.apply inner f head operands).outcome s = (.error error, s) := by
  have resolution := registry.resolution s.store f head
  rw [resolved] at resolution
  cases resolution with
  | @notCallable name value noForm noPrimitive found notClosure =>
      simp only [apply, noForm, noPrimitive]
      rw [applyBound, Eval.outcome_bind_ok (Eval.outcome_lookup_some found)]
      cases value with
      | closure id params body => cases notClosure
      | _ => rfl
  | unbound noForm noPrimitive missing =>
      simp only [apply, noForm, noPrimitive]
      rw [applyBound, Eval.outcome_bind_error (Eval.outcome_lookup_none missing)]
  | other notSymbol notClosure =>
      cases head with
      | symbol name => exact absurd rfl (notSymbol name)
      | closure id params body => cases notClosure
      | _ => rfl

theorem apply_form {form : SpecialForm}
    (resolved : registry.resolve s.store f head = .ok (.form name form)) :
    registry.apply inner f head operands = applyForm inner f name form operands := by
  have resolution := registry.resolution s.store f head
  rw [resolved] at resolution
  cases resolution with
  | form found => simp only [apply, found]

theorem apply_primitive {primitive : Primitive}
    (resolved : registry.resolve s.store f head = .ok (.primitive name primitive)) :
    registry.apply inner f head operands = applyPrimitive f name primitive operands := by
  have resolution := registry.resolution s.store f head
  rw [resolved] at resolution
  cases resolution with
  | primitive noForm found => simp only [apply, noForm, found]

theorem apply_closure {name : Option String} {params : List String} {body : Value}
    (resolved : registry.resolve s.store f head = .ok (.closure name params body)) :
    (registry.apply inner f head operands).outcome s =
      (do callClosure inner f name params body (← Operand.evalAll operands) :
        Eval Value).outcome s := by
  have resolution := registry.resolution s.store f head
  rw [resolved] at resolution
  cases resolution with
  | bound noForm noPrimitive found =>
      simp only [apply, noForm, noPrimitive]
      rw [applyBound, Eval.outcome_bind_ok (Eval.outcome_lookup_some found)]
  | closure => rfl

theorem applyForm_wrongCount {form : SpecialForm}
    (count : form.arity.admits operands.length = false) :
    (applyForm inner f name form operands).outcome s =
      (.error (.arity form.arity operands.length (some name)), s) := by
  have check : (form.arity.check operands.length).mapError (Error.namedBy name) =
      .error (.arity form.arity operands.length (some name)) := by
    rw [Arity.check, count]
    rfl
  rw [applyForm, check]
  rfl

theorem applyForm_admitted {form : SpecialForm}
    (count : form.arity.admits operands.length = true) :
    (applyForm inner f name form operands).outcome s =
      (form.run ⟨f, inner f⟩ operands).outcome s := by
  have check : (form.arity.check operands.length).mapError (Error.namedBy name) = .ok () := by
    rw [Arity.check, count]
    rfl
  rw [applyForm, check]
  rfl

/-- The evaluation one level in, where so many levels are left. -/
def within (registry : Registry) : Nat → Inner
  | 0 => fun _ _ => throw (.eval .unfinished)
  | levels + 1 => registry.evalWithin levels

theorem evalWithin_eq (registry : Registry) (levels : Nat) :
    registry.evalWithin levels = registry.evalWith (registry.within levels) := by
  cases levels <;> rfl

end Registry

section Calls

variable {inner : Inner} {f : FrameId} {name : Option String} {params : List String}
variable {body : Value} {args : List Value} {s : State}

theorem callClosure_wrongCount (count : params.length ≠ args.length) :
    (callClosure inner f name params body args).outcome s =
      (.error (.arity (.exact params.length) args.length name), s) := by
  have refused : (Eval.mapError (Error.namedBy? name)
      (Eval.openFrame params args (some f))).outcome s =
      (.error (.arity (.exact params.length) args.length name), s) := by
    cases name <;> simp [Eval.outcome, Eval.mapError, Eval.openFrame, count, Error.namedBy?,
      Error.namedBy]
  rw [callClosure, Eval.outcome_bind_error refused]

theorem callClosure_tooDeep (count : params.length = args.length)
    (deep : maxDepth ≤ s.store.depth f + 1) :
    (callClosure inner f name params body args).outcome s =
      (.error (.stackLimit (s.store.depth f + 1)),
        s.record (.refused (s.store.depth f + 1))) := by
  have refused : (Eval.mapError (Error.namedBy? name)
      (Eval.openFrame params args (some f))).outcome s =
      (.error (.stackLimit (s.store.depth f + 1)),
        s.record (.refused (s.store.depth f + 1))) := by
    have limit : ¬ s.store.depth f + 1 < maxDepth := Nat.not_lt.mpr deep
    cases name <;> simp [Eval.outcome, Eval.mapError, Eval.openFrame, count, Store.depthUnder,
      limit, Error.namedBy?, Error.namedBy]
  rw [callClosure, Eval.outcome_bind_error refused]

theorem callClosure_opened (count : params.length = args.length)
    (shallow : s.store.depth f + 1 < maxDepth) :
    (callClosure inner f name params body args).outcome s =
      (inner s.store.size body).outcome (s.enter f name params args) := by
  have opened : (Eval.mapError (Error.namedBy? name)
      (Eval.openFrame params args (some f))).outcome s =
      (.ok s.store.size, s.push (s.callee f params args)) := by
    simp [Eval.outcome, Eval.mapError, Eval.openFrame, count, Store.depthUnder, shallow,
      State.callee]
  have deeper : (s.push (s.callee f params args)).store.depth s.store.size =
      s.store.depth f + 1 := s.depth_enter f name params args
  rw [callClosure, Eval.outcome_bind_ok opened]
  simp only [Eval.outcome, bind, EStateM.bind, Eval.depth, Eval.record, deeper]
  rfl

end Calls

namespace SpecialForms

variable {f : FrameId} {signature operand names body : Operand} {s : State} {error : Error}

theorem define_malformed (shape : target signature.expr = .error error) :
    (define f [signature, operand]).outcome s = (.error error, s) := by
  obtain ⟨expr, evaluation⟩ := signature
  cases expr with
  | symbol name => cases shape
  | list items =>
      cases items with
      | nil =>
          cases shape
          rfl
      | cons head params =>
          cases head with
          | symbol name =>
              change (paramNames "define" params).map (Target.function name) = _ at shape
              change (defineFunction f name params operand.expr).outcome s = _
              rw [defineFunction]
              cases named : paramNames "define" params <;> rw [named] at shape <;> cases shape
              rfl
          | _ =>
              cases shape
              rfl
  | _ =>
      cases shape
      rfl

theorem define_value {name : String} (shape : target signature.expr = .ok (.value name)) :
    define f [signature, operand] = defineValue f name operand := by
  obtain ⟨expr, evaluation⟩ := signature
  cases expr with
  | symbol found =>
      cases shape
      rfl
  | list items =>
      cases items with
      | nil => cases shape
      | cons head params =>
          cases head with
          | symbol found =>
              change (paramNames "define" params).map (Target.function found) = _ at shape
              cases named : paramNames "define" params <;> rw [named] at shape <;> cases shape
          | _ => cases shape
  | _ => cases shape

theorem define_function {name : String} {params : List String}
    (shape : target signature.expr = .ok (.function name params)) :
    (define f [signature, operand]).outcome s =
      (.ok (.closure s.supply params operand.expr),
        s.defineFunction f name params operand.expr) := by
  obtain ⟨expr, evaluation⟩ := signature
  cases expr with
  | list items =>
      cases items with
      | nil => cases shape
      | cons head names =>
          cases head with
          | symbol found =>
              change (paramNames "define" names).map (Target.function found) = _ at shape
              change (defineFunction f found names operand.expr).outcome s = _
              rw [defineFunction]
              cases named : paramNames "define" names <;> rw [named] at shape <;> cases shape
              rfl
          | _ => cases shape
  | _ => cases shape

theorem lambda_malformed (shape : parameters names.expr = .error error) :
    (lambda [names, body]).outcome s = (.error error, s) := by
  obtain ⟨expr, evaluation⟩ := names
  cases expr with
  | list items =>
      change paramNames "lambda" items = _ at shape
      simp only [lambda, shape]
      rfl
  | _ =>
      cases shape
      rfl

theorem lambda_wellFormed {params : List String} (shape : parameters names.expr = .ok params) :
    (lambda [names, body]).outcome s =
      (.ok (.closure s.supply params body.expr), s.nextClosure) := by
  obtain ⟨expr, evaluation⟩ := names
  cases expr with
  | list items =>
      change paramNames "lambda" items = _ at shape
      simp only [lambda, shape]
      rfl
  | _ => cases shape

theorem defineValue_error {name : String} {s' : State}
    (failed : operand.eval.outcome s = (.error error, s')) :
    (defineValue f name operand).outcome s = (.error error, s') := by
  rw [defineValue, Eval.outcome_bind_error failed]

theorem defineValue_ok {name : String} {value : Value} {s' : State}
    (evaluated : operand.eval.outcome s = (.ok value, s')) :
    (defineValue f name operand).outcome s = (.ok (.symbol name), s'.define f name value) := by
  rw [defineValue, Eval.outcome_bind_ok evaluated]
  rfl

end SpecialForms

/-- Evaluates a task, given the evaluation one level in. -/
def Task.run (registry : Registry) (inner : Inner) (f : FrameId) : Task → Eval Value
  | expr e => registry.evalWith inner f e
  | operands exprs => Value.list <$> Operand.evalAll (registry.operandsWith inner f exprs)

namespace Task

variable {registry : Registry} {inner : Inner} {f : FrameId} {head : Value} {exprs : List Value}
variable {s s' : State}

@[simp] theorem length_operandsWith (registry : Registry) (inner : Inner) (f : FrameId)
    (exprs : List Value) : (registry.operandsWith inner f exprs).length = exprs.length := by
  induction exprs with
  | nil => rfl
  | cons expr exprs ih => simp [Registry.operandsWith, ih]

theorem run_form {name : String} {form : SpecialForm}
    (resolved : registry.resolve s.store f head = .ok (.form name form))
    (count : form.arity.admits exprs.length = true) :
    ((expr (.list (head :: exprs))).run registry inner f).outcome s =
      (form.run ⟨f, inner f⟩ (registry.operandsWith inner f exprs)).outcome s := by
  change (registry.apply inner f head _).outcome s = _
  rw [Registry.apply_form resolved, Registry.applyForm_admitted]
  rw [length_operandsWith]
  exact count

/-- The list of collected values determines the values. -/
theorem collected_injective {first second : Except Error (List Value)}
    (same : first.map Value.list = second.map Value.list) : first = second := by
  cases first <;> cases second <;> cases same <;> rfl

theorem evalAll_of_run (result : Except Error (List Value))
    (ran : ((operands exprs).run registry inner f).outcome s = (result.map .list, s')) :
    (Operand.evalAll (registry.operandsWith inner f exprs)).outcome s = (result, s') := by
  rw [run, Eval.outcome_map] at ran
  obtain ⟨values, state⟩ := Prod.mk.inj ran
  rw [← collected_injective values, ← state]

theorem run_closure {name : Option String} {params : List String} {body : Value}
    {args : List Value}
    (resolved : registry.resolve s.store f head = .ok (.closure name params body))
    (ran : ((operands exprs).run registry inner f).outcome s = (.ok (.list args), s')) :
    ((expr (.list (head :: exprs))).run registry inner f).outcome s =
      (callClosure inner f name params body args).outcome s' := by
  change (registry.apply inner f head _).outcome s = _
  rw [Registry.apply_closure resolved, Eval.outcome_bind_ok (evalAll_of_run (.ok args) ran)]

theorem run_cons_error {e : Value} {error : Error}
    (failed : ((expr e).run registry inner f).outcome s = (.error error, s')) :
    ((operands (e :: exprs)).run registry inner f).outcome s = (.error error, s') := by
  have stopped : (Operand.evalAll (registry.operandsWith inner f (e :: exprs))).outcome s =
      (.error error, s') := Eval.outcome_bind_error failed
  rw [run, Eval.outcome_map, stopped]
  rfl

theorem run_cons_ok {e value : Value} {s₁ : State} (result : Except Error (List Value))
    (first : ((expr e).run registry inner f).outcome s = (.ok value, s₁))
    (rest : ((operands exprs).run registry inner f).outcome s₁ = (result.map .list, s')) :
    ((operands (e :: exprs)).run registry inner f).outcome s =
      ((result.map (value :: ·)).map .list, s') := by
  have later := evalAll_of_run result rest
  have collected : (Operand.evalAll (registry.operandsWith inner f (e :: exprs))).outcome s =
      (result.map (value :: ·), s') := by
    refine (Eval.outcome_bind_ok first).trans ?_
    cases result with
    | error error => rw [Eval.outcome_bind_error later]; rfl
    | ok values => rw [Eval.outcome_bind_ok later]; rfl
  rw [run, Eval.outcome_map, collected]

end Task

namespace Evaluates

variable {registry : Registry} {f : FrameId} {task : Task} {s s' : State}
variable {outcome : Except Error Value}

/-- What the rules derive is what the evaluator computes, given one level for
each frame that the chain of `f` still has room for. -/
theorem run_within (h : Evaluates registry f task s outcome s') (present : f < s.store.size)
    (levels : Nat) (enough : maxDepth ≤ s.store.depth f + levels + 1) :
    (task.run registry (registry.within levels) f).outcome s = (outcome, s') := by
  induction h generalizing levels with
  | bound found => exact Eval.outcome_lookup_some found
  | unbound missing => exact Eval.outcome_lookup_none missing
  | @itself f value s constant =>
      cases value with
      | symbol name => cases constant
      | list items =>
          cases items with
          | nil => rfl
          | cons head rest => cases constant
      | nil | bool | int | closure => rfl
  | unresolved resolved => exact Registry.apply_unresolved resolved
  | wrongCount resolved count =>
      change (registry.apply _ _ _ _).outcome _ = _
      rw [Registry.apply_form resolved, Registry.applyForm_wrongCount] <;>
        simp [Task.length_operandsWith, count]
  | quote resolved =>
      rw [Task.run_form resolved rfl]
      rfl
  | testFails resolved _ ih =>
      rw [Task.run_form resolved rfl]
      exact Eval.outcome_bind_error (ih present levels enough)
  | @choose _ _ _ _ _ _ value _ _ _ _ resolved tested _ test branch =>
      have grows := tested.grows present
      have later := branch (grows.lt_size present) levels (by
        rw [grows.depth_eq present]
        exact enough)
      rw [Task.run_form resolved rfl]
      refine (Eval.outcome_bind_ok (test present levels enough)).trans ?_
      rw [apply_ite Task.expr, apply_ite (Task.run registry _ _)] at later
      exact later
  | malformedTarget resolved shape =>
      rw [Task.run_form resolved rfl]
      exact SpecialForms.define_malformed shape
  | definitionFails resolved shape _ ih =>
      rw [Task.run_form resolved rfl]
      change (SpecialForms.define _ [_, _]).outcome _ = _
      rw [SpecialForms.define_value shape]
      exact SpecialForms.defineValue_error (ih present levels enough)
  | defineValue resolved shape _ ih =>
      rw [Task.run_form resolved rfl]
      change (SpecialForms.define _ [_, _]).outcome _ = _
      rw [SpecialForms.define_value shape]
      exact SpecialForms.defineValue_ok (ih present levels enough)
  | defineFunction resolved shape =>
      rw [Task.run_form resolved rfl]
      exact SpecialForms.define_function shape
  | malformedParameters resolved shape =>
      rw [Task.run_form resolved rfl]
      exact SpecialForms.lambda_malformed shape
  | lambda resolved shape =>
      rw [Task.run_form resolved rfl]
      exact SpecialForms.lambda_wellFormed shape
  | @operandFails _ _ _ operator _ _ _ resolved eager _ ih =>
      have failed := Task.evalAll_of_run (.error _) (ih present levels enough)
      change (registry.apply _ _ _ _).outcome _ = _
      cases operator with
      | form name form => cases eager
      | primitive name primitive =>
          rw [Registry.apply_primitive resolved, Registry.applyPrimitive,
            Eval.outcome_bind_error failed]
      | closure name params body =>
          rw [Registry.apply_closure resolved, Eval.outcome_bind_error failed]
  | primitive resolved _ ran _ ih =>
      have args := Task.evalAll_of_run (.ok _) (ih present levels enough)
      change (registry.apply _ _ _ _).outcome _ = _
      rw [Registry.apply_primitive resolved, Registry.applyPrimitive, Eval.outcome_bind_ok args,
        Eval.outcome_mapError, ran]
  | callCount resolved _ count ih =>
      rw [Task.run_closure resolved (ih present levels enough), callClosure_wrongCount count]
  | callTooDeep resolved _ count deep ih =>
      rw [Task.run_closure resolved (ih present levels enough), callClosure_tooDeep count deep]
  | call resolved evaluated count shallow _ ih ran =>
      rw [Task.run_closure resolved (ih present levels enough), callClosure_opened count shallow]
      -- The frame of the call is one deeper than `f`, which pays for the level.
      rw [← (evaluated.grows present).depth_eq present] at enough
      cases levels with
      | zero => omega
      | succ levels =>
          have body := ran (State.lt_size_enter _ _ _ _ _) levels (by
            rw [State.depth_enter]
            omega)
          rw [Registry.within, Registry.evalWithin_eq]
          exact body
  | noOperands => rfl
  | firstFails _ ih => exact Task.run_cons_error (ih present levels enough)
  | laterFails head _ first rest =>
      have grows := head.grows present
      exact Task.run_cons_ok (.error _) (first present levels enough)
        (rest (grows.lt_size present) levels (by
          rw [grows.depth_eq present]
          exact enough))
  | operands head _ first rest =>
      have grows := head.grows present
      exact Task.run_cons_ok (.ok _) (first present levels enough)
        (rest (grows.lt_size present) levels (by
          rw [grows.depth_eq present]
          exact enough))

/-- Any number of levels from `maxDepth` on gives what the rules give. -/
theorem evalWithin_eq {expr : Value} (h : Evaluates registry f (.expr expr) s outcome s')
    (present : f < s.store.size) {levels : Nat} (enough : maxDepth ≤ levels) :
    (registry.evalWithin levels f expr).outcome s = (outcome, s') := by
  rw [Registry.evalWithin_eq]
  exact h.run_within present levels (by omega)

theorem eval_eq {expr : Value} (h : Evaluates registry f (.expr expr) s outcome s')
    (present : f < s.store.size) : (registry.eval f expr).outcome s = (outcome, s') :=
  h.evalWithin_eq present (by decide)

/-- The rules give at most one outcome. -/
theorem unique (h : Evaluates registry f task s outcome s') (present : f < s.store.size)
    {outcome' : Except Error Value} {s'' : State}
    (h' : Evaluates registry f task s outcome' s'') : outcome' = outcome ∧ s'' = s' := by
  have first := h.run_within present maxDepth (by omega)
  have second := h'.run_within present maxDepth (by omega)
  rw [first] at second
  exact ⟨(Prod.mk.inj second).1.symm, (Prod.mk.inj second).2.symm⟩

end Evaluates

end DynamicLisp
