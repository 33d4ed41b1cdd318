import DynamicLisp.Proofs.Evaluation.Parametricity

/-!
# Bindings that are never looked up

Two frames at the same depth may show different values for a name. As long as neither
the evaluated expression nor any closure within reach looks the name up, evaluation
cannot tell the frames apart. In particular no binding can change what a special form or
a primitive does, because their names are not looked up at the head of a list.

Both evaluations are followed at once, the first by its rules and the second by the
flat interpreter. A step of one is a step of the other, and what they hold at the same
place corresponds. The name itself may be bound on the way, by a definition or by a
parameter that is called so.
-/

namespace DynamicLisp

open Flat

variable {r : ClosureId → ClosureId → Prop} {hidden : String}

namespace Flat.Scope

/-- Apart from `hidden`, the two scopes bind the same names to corresponding values. The
closures that are made from here on will have related identities. -/
structure AgreeExcept (r : ClosureId → ClosureId → Prop) (hidden : String)
    (scope other : Scope) : Prop where
  fresh : ∀ n, r (scope.supply + n) (other.supply + n)
  bindings : ∀ name, name ≠ hidden → Option.Rel (Value.Corresponds r hidden)
    (scope.bindings.find? name) (other.bindings.find? name)

/-- What became of two scopes: they agree except for `hidden`, which either is as it was
on both sides or was bound to corresponding values. -/
structure Evolve (r : ClosureId → ClosureId → Prop) (hidden : String)
    (scope other scope' other' : Scope) : Prop where
  agree : AgreeExcept r hidden scope' other'
  itself : (scope'.bindings.find? hidden = scope.bindings.find? hidden ∧
      other'.bindings.find? hidden = other.bindings.find? hidden) ∨
    Option.Rel (Value.Corresponds r hidden) (scope'.bindings.find? hidden)
      (other'.bindings.find? hidden)

variable {scope other scope₁ other₁ scope₂ other₂ : Scope}

namespace AgreeExcept

/-- Under another name than `hidden` both scopes show a value, or neither does. -/
theorem find? (agree : AgreeExcept r hidden scope other) {name : String}
    (distinct : name ≠ hidden) :
    (∃ value value', scope.bindings.find? name = some value ∧
        other.bindings.find? name = some value' ∧ value.Corresponds r hidden value') ∨
      (scope.bindings.find? name = none ∧ other.bindings.find? name = none) := by
  have related := agree.bindings name distinct
  generalize scope.bindings.find? name = seen, other.bindings.find? name = seen' at related
  cases related with
  | some related => exact .inl ⟨_, _, rfl, rfl, related⟩
  | none => exact .inr ⟨rfl, rfl⟩

theorem lookup (agree : AgreeExcept r hidden scope other) {name : String}
    (distinct : name ≠ hidden) :
    ResultsAlike r (Value.Corresponds r hidden) (scope.lookup name) (other.lookup name) := by
  obtain ⟨value, value', seen, seen', related⟩ | ⟨unseen, unseen'⟩ := agree.find? distinct
  · simp only [Scope.lookup, seen, seen']
    exact .ok related
  · simp only [Scope.lookup, unseen, unseen']
    exact .error (.same _)

/-- The head of a list that overlooks `hidden` stands for the same callee. -/
theorem callee (agree : AgreeExcept r hidden scope other) {head : Value} {operands : List Value}
    (noWord : Keyword.ofHead? head = none)
    (overlooks : (Value.list (head :: operands)).Overlooks hidden) :
    ResultsAlike r (fun callee callee' => callee = callee' ∧ callee.Overlooks hidden)
      (scope.callee head) (other.callee head) := by
  cases head with
  | symbol name =>
      simp only [Scope.callee]
      cases registered : Registry.standard.primitives.find? name with
      | some builtin => exact .ok ⟨rfl, trivial⟩
      | none =>
          have distinct := overlooks.head_ne noWord registered
          obtain ⟨value, value', seen, seen', related⟩ | ⟨unseen, unseen'⟩ := agree.find? distinct
          · rw [seen, seen']
            have fault := Error.Alike.type (.notCallable name related.alike)
            obtain ⟨alike, closures⟩ := related
            cases alike with
            | closure => exact .ok ⟨rfl, Value.closuresOverlook_closure.mp closures⟩
            | _ => exact .error fault
          · rw [unseen, unseen']
            exact .error (.same _)
  | closure => exact .ok ⟨rfl, overlooks.body⟩
  | _ => exact .error (.same _)

theorem define (agree : AgreeExcept r hidden scope other) (name : String) {value value' : Value}
    (related : value.Corresponds r hidden value') :
    AgreeExcept r hidden (scope.define name value) (other.define name value') := by
  refine ⟨agree.fresh, ?_⟩
  intro seen distinct
  simp only [Scope.define, Table.find?_insert]
  split
  · exact .some related
  · exact agree.bindings seen distinct

theorem nextClosure (agree : AgreeExcept r hidden scope other) :
    AgreeExcept r hidden scope.nextClosure other.nextClosure := by
  refine ⟨?_, agree.bindings⟩
  intro n
  simpa [Scope.nextClosure, Nat.add_assoc, Nat.add_comm 1] using agree.fresh (n + 1)

/-- Parameters may have any names: one called `hidden` binds it on both sides. -/
theorem enter (agree : AgreeExcept r hidden scope other) (params : List String)
    {args args' : List Value} (related : List.Forall₂ (Value.Corresponds r hidden) args args') :
    AgreeExcept r hidden (scope.enter params args) (other.enter params args') := by
  induction params generalizing scope other args args' with
  | nil => exact agree
  | cons name params ih =>
      cases related with
      | nil => exact agree
      | cons first rest => exact ih (agree.define name first) rest

theorem leave (agree : AgreeExcept r hidden scope other)
    (after : AgreeExcept r hidden scope₁ other₁) :
    AgreeExcept r hidden (scope.leave scope₁) (other.leave other₁) :=
  ⟨after.fresh, agree.bindings⟩

end AgreeExcept

namespace Evolve

theorem refl (agree : AgreeExcept r hidden scope other) :
    Evolve r hidden scope other scope other :=
  ⟨agree, .inl ⟨rfl, rfl⟩⟩

theorem trans (first : Evolve r hidden scope other scope₁ other₁)
    (second : Evolve r hidden scope₁ other₁ scope₂ other₂) :
    Evolve r hidden scope other scope₂ other₂ := by
  refine ⟨second.agree, ?_⟩
  obtain ⟨kept, kept'⟩ | rebound := second.itself
  · rw [kept, kept']
    exact first.itself
  · exact .inr rebound

theorem define (agree : AgreeExcept r hidden scope other) (name : String) {value value' : Value}
    (related : value.Corresponds r hidden value') :
    Evolve r hidden scope other (scope.define name value) (other.define name value') := by
  refine ⟨agree.define name related, ?_⟩
  simp only [Scope.define, Table.find?_insert]
  split
  · exact .inr (.some related)
  · exact .inl ⟨rfl, rfl⟩

theorem nextClosure (agree : AgreeExcept r hidden scope other) :
    Evolve r hidden scope other scope.nextClosure other.nextClosure :=
  ⟨agree.nextClosure, .inl ⟨rfl, rfl⟩⟩

theorem leave (agree : AgreeExcept r hidden scope other)
    (after : AgreeExcept r hidden scope₁ other₁) :
    Evolve r hidden scope other (scope.leave scope₁) (other.leave other₁) :=
  ⟨agree.leave after, .inl ⟨rfl, rfl⟩⟩

end Evolve

end Flat.Scope

/-- Two runs that started in `scope` and `other` have the same outcome up to identities,
and leave scopes that agree as before. -/
structure Parallel (r : ClosureId → ClosureId → Prop) (hidden : String) (scope other : Scope)
    (run run' : Except Error Value × Scope) : Prop where
  outcomes : ResultsAlike r (Value.Corresponds r hidden) run.1 run'.1
  scopes : Scope.Evolve r hidden scope other run.2 run'.2

namespace Parallel

variable {depth : Nat} {scope other scope₁ : Scope} {run' : Except Error Value × Scope}
variable {exprs : List Value}

/-- Both runs end at once with the same error. -/
theorem fail (agree : scope.AgreeExcept r hidden other) (error : Error) :
    Parallel r hidden scope other (.error error, scope) (.error error, other) :=
  ⟨.error (.same error), .refl agree⟩

/-- Both runs end at once with the same value. -/
theorem done (same : ∀ id, r id id) (agree : scope.AgreeExcept r hidden other) {value : Value}
    (overlooks : value.ClosuresOverlook hidden) :
    Parallel r hidden scope other (.ok value, scope) (.ok value, other) :=
  ⟨.ok ⟨.refl same value, overlooks⟩, .refl agree⟩

theorem of_ok {value : Value} (runs : Parallel r hidden scope other (.ok value, scope₁) run') :
    ∃ value' other₁, run' = (.ok value', other₁) ∧ value.Corresponds r hidden value' ∧
      Scope.Evolve r hidden scope other scope₁ other₁ := by
  obtain ⟨value', gave, related⟩ := runs.outcomes.ok_left
  exact ⟨value', run'.2, Prod.ext gave rfl, related, runs.scopes⟩

theorem of_error {error : Error}
    (runs : Parallel r hidden scope other (.error error, scope₁) run') :
    ∃ error' other₁, run' = (.error error', other₁) ∧ error.Alike r error' ∧
      Scope.Evolve r hidden scope other scope₁ other₁ := by
  obtain ⟨error', failed, alike⟩ := runs.outcomes.error_left
  exact ⟨error', run'.2, Prod.ext failed rfl, alike, runs.scopes⟩

theorem of_values {args : List Value}
    (runs : Parallel r hidden scope other (.ok (.list args), scope₁)
      ((Task.operands exprs).flat depth other)) :
    ∃ args' other₁, evalAll depth other exprs = (.ok args', other₁) ∧
      List.Forall₂ (Value.Corresponds r hidden) args args' ∧
      Scope.Evolve r hidden scope other scope₁ other₁ := by
  obtain ⟨value', other₁, flat, related, scopes⟩ := runs.of_ok
  obtain ⟨args', rfl, each⟩ := related.exists_list
  exact ⟨args', other₁, evalAll_of_flat (.ok args') flat, each, scopes⟩

end Parallel

namespace Registry

variable {s : State} {f : FrameId} {head : Value} {operands : List Value} {other : Scope}

/-- What is called with values in one run is called in the other too, and neither its
body nor its operands look `hidden` up. -/
theorem callee_of_agree {operator : Operator}
    (resolved : standard.resolve s.store f head = .ok operator)
    (eager : operator.isEager = true) (agree : (s.scope f).AgreeExcept r hidden other)
    (overlooks : (Value.list (head :: operands)).Overlooks hidden) :
    Keyword.ofHead? head = none ∧
      (∃ callee, other.callee head = .ok callee ∧ callee.operator = operator ∧
        callee.Overlooks hidden) ∧
      ∀ expr ∈ operands, expr.Overlooks hidden := by
  obtain ⟨noWord, callee, found, rfl⟩ := callee_of_resolve resolved eager
  have callees := agree.callee noWord overlooks
  rw [found] at callees
  obtain ⟨_, seen, rfl, body⟩ := callees.ok_left
  exact ⟨noWord, ⟨callee, seen, rfl, body⟩, overlooks.arguments noWord found⟩

/-- A call whose operands evaluate in parallel is a call of the same callee with
corresponding arguments. -/
theorem call_of_agree {operator : Operator} {args : List Value} {depth : Nat} {scope₁ : Scope}
    (resolved : standard.resolve s.store f head = .ok operator)
    (eager : operator.isEager = true) (agree : (s.scope f).AgreeExcept r hidden other)
    (overlooks : (Value.list (head :: operands)).Overlooks hidden)
    (evaluated : (Task.operands operands).Overlooks hidden →
      Parallel r hidden (s.scope f) other (.ok (.list args), scope₁)
        ((Task.operands operands).flat depth other)) :
    ∃ callee args' other₁, callee.operator = operator ∧ callee.Overlooks hidden ∧
      Flat.eval depth other (.list (head :: operands)) = Flat.call depth other₁ callee args' ∧
      List.Forall₂ (Value.Corresponds r hidden) args args' ∧
      Scope.Evolve r hidden (s.scope f) other scope₁ other₁ := by
  obtain ⟨noWord, ⟨callee, found, same, body⟩, each⟩ :=
    callee_of_agree resolved eager agree overlooks
  obtain ⟨args', other₁, gave, related, scopes⟩ := (evaluated each).of_values
  exact ⟨callee, args', other₁, same, body, Flat.eval_call noWord found gave, related, scopes⟩

end Registry

namespace Evaluates

variable {f : FrameId} {task : Task} {s s' : State} {outcome : Except Error Value}

/-- The second run of a task goes as the first did. -/
theorem parallel (same : ∀ id, r id id) (h : Evaluates .standard f task s outcome s')
    (present : f < s.store.size) {other : Scope}
    (agree : (s.scope f).AgreeExcept r hidden other) (overlooks : task.Overlooks hidden) :
    Parallel r hidden (s.scope f) other (outcome, s'.scope f)
      (task.flat (s.store.depth f) other) := by
  -- The rules lead through the first run. In each of them the second run can only take
  -- the same branch, since whatever it branches on is alike.
  induction h generalizing other with
  | bound seen | unbound seen =>
      have outcomes := agree.lookup overlooks.symbol_ne
      rw [Scope.lookup, State.find?_scope, seen] at outcomes
      rw [Task.flat, Flat.eval]
      exact ⟨outcomes, .refl agree⟩
  | itself constant =>
      rw [Task.flat, Flat.eval_itself constant]
      exact .done same agree overlooks.closures
  | unresolved resolved =>
      obtain ⟨noWord, missing⟩ := Registry.callee_of_unresolved resolved
      have callees := agree.callee noWord overlooks
      rw [missing] at callees
      obtain ⟨error', seen, alike⟩ := callees.error_left
      rw [Task.flat, Flat.eval_unresolved noWord seen]
      exact ⟨.error alike, .refl agree⟩
  | wrongCount resolved count =>
      obtain ⟨word, found, rfl, rfl⟩ := Registry.exists_keyword_of_resolve resolved
      rw [word.form_arity] at count ⊢
      rw [Task.flat, Flat.eval_wrongCount found (by simpa [Arity.admits] using count)]
      exact .fail agree _
  | quote resolved =>
      have word := Registry.ofHead?_of_resolve .quote resolved
      simp only [Task.flat, Flat.eval, word]
      refine .done same agree ?_
      exact Value.closuresOverlook_list.mp overlooks.closures _ (by simp)
  | testFails resolved _ tested =>
      have word := Registry.ofHead?_of_resolve .choose resolved
      have each := overlooks.choose word
      obtain ⟨error', other₁, failed, alike, scopes⟩ :=
        (tested present agree (each _ (by simp))).of_error
      simp only [Task.flat] at failed
      simp only [Task.flat, Flat.eval, word, failed]
      exact ⟨.error alike, scopes⟩
  | @choose f head test yes no name value outcome s s₁ s₂ resolved before _ tested chosen =>
      have word := Registry.ofHead?_of_resolve .choose resolved
      have each := overlooks.choose word
      obtain ⟨value', other₁, gave, related, scopes⟩ :=
        (tested present agree (each _ (by simp))).of_ok
      have branch : (if value.isFalse then no else yes).Overlooks hidden := by
        split
        · exact each _ (by simp)
        · exact each _ (by simp)
      have runs := chosen (before.writesOwn.lt_size present) scopes.agree branch
      rw [before.writesOwn.depth_eq present, Task.flat, related.alike.isFalse_eq] at runs
      rw [Task.flat, Flat.eval_choose word gave]
      exact ⟨runs.outcomes, scopes.trans runs.scopes⟩
  | malformedTarget resolved shape =>
      have word := Registry.ofHead?_of_resolve .define resolved
      simp only [Task.flat, Flat.eval, word, shape]
      exact .fail agree _
  | definitionFails resolved shape _ evaluated =>
      have word := Registry.ofHead?_of_resolve .define resolved
      obtain ⟨error', other₁, failed, alike, scopes⟩ :=
        (evaluated present agree (overlooks.second (.inl word))).of_error
      simp only [Task.flat] at failed
      simp only [Task.flat, Flat.eval, word, shape, failed]
      exact ⟨.error alike, scopes⟩
  | defineValue resolved shape before evaluated =>
      have word := Registry.ofHead?_of_resolve .define resolved
      obtain ⟨value', other₁, gave, related, scopes⟩ :=
        (evaluated present agree (overlooks.second (.inl word))).of_ok
      simp only [Task.flat] at gave
      simp only [Task.flat, Flat.eval, word, shape, gave]
      rw [State.scope_define (before.writesOwn.lt_size present)]
      -- The name may be `hidden` itself; from then on both sides agree on it.
      exact ⟨.ok (.symbol _), scopes.trans (.define scopes.agree _ related)⟩
  | @defineFunction f head signature body name bound params s resolved shape =>
      have word := Registry.ofHead?_of_resolve .define resolved
      have made :=
        Value.Corresponds.closure (agree.fresh 0) params (overlooks.second (.inl word))
      simp only [Task.flat, Flat.eval, word, shape]
      rw [State.scope_defineFunction present]
      exact ⟨.ok made, (Scope.Evolve.nextClosure agree).trans (.define agree.nextClosure _ made)⟩
  | malformedParameters resolved shape =>
      have word := Registry.ofHead?_of_resolve .lambda resolved
      simp only [Task.flat, Flat.eval, word, shape]
      exact .fail agree _
  | @lambda f head names body name params s resolved shape =>
      have word := Registry.ofHead?_of_resolve .lambda resolved
      have made :=
        Value.Corresponds.closure (agree.fresh 0) params (overlooks.second (.inr word))
      simp only [Task.flat, Flat.eval, word, shape]
      exact ⟨.ok made, .nextClosure agree⟩
  | operandFails resolved eager _ evaluated =>
      obtain ⟨noWord, ⟨callee, found, -⟩, each⟩ :=
        Registry.callee_of_agree resolved eager agree overlooks
      obtain ⟨error', other₁, failed, alike, scopes⟩ := (evaluated present agree each).of_error
      rw [Task.flat, Flat.eval_operandFails noWord found
        (Flat.evalAll_of_flat (.error error') failed)]
      exact ⟨.error alike, scopes⟩
  | @primitive f _ _ _ _ _ _ s s₁ _ resolved _ ran _ evaluated =>
      have same := Registry.eq_of_ran_standard resolved ran
      rw [same] at ran ⊢
      obtain ⟨callee, args', other₁, operator, -, called, related, scopes⟩ :=
        Registry.call_of_agree resolved rfl agree overlooks (evaluated present agree)
      obtain rfl := Callee.eq_primitive operator
      have found := Registry.find?_primitive_of_resolve resolved
      have results := Primitive.runChecked_corresponds found f 0 s₁
        (other₁.state (s.store.depth f)) related
      rw [ran] at results
      rw [Task.flat, called, Flat.call]
      exact ⟨results.mapError_namedBy _, scopes⟩
  | callCount resolved _ count evaluated =>
      obtain ⟨callee, args', other₁, operator, -, called, related, scopes⟩ :=
        Registry.call_of_agree resolved rfl agree overlooks (evaluated present agree)
      obtain rfl := Callee.eq_closure operator
      rw [related.length_eq] at count ⊢
      simp only [Task.flat, called, Flat.call, count, if_false]
      exact ⟨.error (.same _), scopes⟩
  | callTooDeep resolved before count deep evaluated =>
      obtain ⟨callee, args', other₁, operator, -, called, related, scopes⟩ :=
        Registry.call_of_agree resolved rfl agree overlooks (evaluated present agree)
      obtain rfl := Callee.eq_closure operator
      rw [related.length_eq] at count
      rw [before.writesOwn.depth_eq present] at deep ⊢
      simp only [Task.flat, called, Flat.call, count, Nat.not_lt.mpr deep, if_true, if_false]
      exact ⟨.error (.same _), scopes⟩
  | @call f head operands name params body args outcome s s₁ s₂ resolved before count shallow ran
      evaluated entered =>
      obtain ⟨callee, args', other₁, operator, unread, called, related, scopes⟩ :=
        Registry.call_of_agree resolved rfl agree overlooks (evaluated present agree)
      obtain rfl := Callee.eq_closure operator
      have caller := before.writesOwn.lt_size present
      have inside := scopes.agree.enter params related
      rw [← State.scope_enter caller name] at inside
      have runs := entered (State.lt_size_enter _ _ _ _ _) inside unread
      rw [State.depth_enter, Task.flat] at runs
      rw [before.writesOwn.depth_eq present] at shallow runs
      rw [related.length_eq] at count
      simp only [Task.flat, called, Flat.call, count, shallow, if_true]
      -- What the body bound stays behind; only the supply comes out of the call.
      rw [State.scope_leave ran caller]
      exact ⟨runs.outcomes, scopes.trans (.leave scopes.agree runs.scopes.agree)⟩
  | noOperands =>
      simp only [Task.flat, Flat.evalAll]
      exact .done same agree (by simp [Value.closuresOverlook_list])
  | firstFails _ first =>
      obtain ⟨error', other₁, failed, alike, scopes⟩ :=
        (first present agree (overlooks _ (by simp))).of_error
      simp only [Task.flat] at failed
      simp only [Task.flat, Flat.evalAll, failed]
      exact ⟨.error alike, scopes⟩
  | laterFails before _ first later =>
      obtain ⟨here, rest⟩ := List.forall_mem_cons.mp overlooks
      obtain ⟨value', other₁, gave, -, scopes⟩ := (first present agree here).of_ok
      have runs := later (before.writesOwn.lt_size present) scopes.agree rest
      rw [before.writesOwn.depth_eq present] at runs
      obtain ⟨error', other₂, failed, alike, scopes'⟩ := runs.of_error
      have failed := Flat.evalAll_of_flat (.error error') failed
      simp only [Task.flat] at gave
      simp only [Task.flat, Flat.evalAll, gave, failed]
      exact ⟨.error alike, scopes.trans scopes'⟩
  | operands before _ first later =>
      obtain ⟨here, rest⟩ := List.forall_mem_cons.mp overlooks
      obtain ⟨value', other₁, gave, related, scopes⟩ := (first present agree here).of_ok
      have runs := later (before.writesOwn.lt_size present) scopes.agree rest
      rw [before.writesOwn.depth_eq present] at runs
      obtain ⟨values', other₂, gaveAll, each, scopes'⟩ := runs.of_values
      simp only [Task.flat] at gave
      simp only [Task.flat, Flat.evalAll, gave, gaveAll]
      exact ⟨.ok (Value.Corresponds.list_iff.mpr (.cons related each)), scopes.trans scopes'⟩

end Evaluates

section Independence

variable {s t : State} {f g : FrameId}

/-- Apart from `hidden`, frame `f` of `s` and frame `g` of `t` show alike values, whose
closures do not look `hidden` up. Closures made from here on have related identities. -/
structure State.AgreeExcept (r : ClosureId → ClosureId → Prop) (hidden : String) (s : State)
    (f : FrameId) (t : State) (g : FrameId) : Prop where
  fresh : ∀ n, r (s.supply + n) (t.supply + n)
  alike : ∀ name, name ≠ hidden →
    Option.Rel (Value.Alike r) (s.store.get? f name) (t.store.get? g name)
  overlooks : ∀ name, name ≠ hidden → ∀ value, s.store.get? f name = some value →
    value.ClosuresOverlook hidden

theorem State.agreeExcept_iff_scope :
    AgreeExcept r hidden s f t g ↔ (s.scope f).AgreeExcept r hidden (t.scope g) := by
  constructor
  · intro agree
    refine ⟨agree.fresh, ?_⟩
    intro name distinct
    rw [find?_scope, find?_scope, Value.Corresponds.rel_iff]
    exact ⟨agree.alike name distinct, agree.overlooks name distinct⟩
  · intro agree
    have seen : ∀ name, name ≠ hidden → _ := fun name distinct =>
      Value.Corresponds.rel_iff.mp (agree.bindings name distinct)
    simp only [find?_scope] at seen
    exact ⟨agree.fresh, fun name distinct => (seen name distinct).1,
      fun name distinct => (seen name distinct).2⟩

/-- Evaluation in two frames at the same depth, which may show different values for one
name, has the same outcome up to the identities of closures if neither the expression nor
any closure in it or among the other values that can be seen looks that name up. The
frames then agree again on every other name, and on that name too unless it is as it was
on both sides. For `r` one may take the relation that always holds, or one as fine as the
two supplies allow. -/
theorem eval_ignores_unread (same : ∀ id, r id id) (present : f < s.store.size)
    (present' : g < t.store.size) (depths : t.store.depth g = s.store.depth f)
    (agree : State.AgreeExcept r hidden s f t g) (expr : Value)
    (unread : hidden ∉ expr.reads) (closures : expr.ClosuresOverlook hidden) :
    ∃ outcome outcome' s' t',
      (Registry.standard.eval f expr).outcome s = (outcome, s') ∧
      (Registry.standard.eval g expr).outcome t = (outcome', t') ∧
      ResultsAlike r (Value.Alike r) outcome outcome' ∧
      State.AgreeExcept r hidden s' f t' g ∧
      ((s'.store.get? f hidden = s.store.get? f hidden ∧
          t'.store.get? g hidden = t.store.get? g hidden) ∨
        Option.Rel (Value.Alike r) (s'.store.get? f hidden) (t'.store.get? g hidden)) := by
  obtain ⟨outcome, s', ran, h⟩ := Registry.standard_outcome present expr
  obtain ⟨outcome', t', ran', flat'⟩ := Registry.eval_flat present' expr
  have runs := h.parallel same present (State.agreeExcept_iff_scope.mp agree) ⟨unread, closures⟩
  rw [Task.flat, ← depths, flat'] at runs
  obtain ⟨outcomes, scopes⟩ := runs
  have itself := scopes.itself
  simp only [State.find?_scope] at itself
  refine ⟨outcome, outcome', s', t', ran, ran', ?_, ?_, ?_⟩
  · exact outcomes.mono fun _ _ related => related.alike
  · exact State.agreeExcept_iff_scope.mpr scopes.agree
  · exact itself.imp_right fun related => (Value.Corresponds.rel_iff.mp related).1

end Independence

/-- A closure that chooses by its argument. -/
def Value.chooser : Value :=
  .closure 0 ["x"] (.list [.symbol "if", .symbol "x", .symbol "x", .int 2])

/-- A root that binds `if`, which can be seen but is never looked up. -/
def State.rebinding : State :=
  ⟨⟨#[⟨.ofList [("if", .int 0), ("pick", .chooser)], none, 0⟩]⟩, 1, #[]⟩

/-- The same without the binding of `if`, after five more closures were made. -/
def State.choosing : State :=
  ⟨⟨#[⟨.ofList [("pick", .chooser)], none, 0⟩]⟩, 6, #[]⟩

/-- `pick` of an abstraction is that abstraction. -/
def Value.pickAbstraction : Value :=
  .list [.symbol "pick", .list [.symbol "lambda", .list [.symbol "y"], .symbol "y"]]

theorem State.get?_rebinding {name : String} (distinct : name ≠ "if") :
    rebinding.store.get? 0 name = if "pick" = name then some .chooser else none := by
  have frame : rebinding.store.frame? 0 =
      some ⟨.ofList [("if", .int 0), ("pick", .chooser)], none, 0⟩ := rfl
  rw [Store.get?_of_frame? frame]
  simp [Table.find?_ofList, Table.lookup, Ne.symm distinct]

theorem State.get?_choosing (name : String) :
    choosing.store.get? 0 name = if "pick" = name then some .chooser else none := by
  have frame : choosing.store.frame? 0 = some ⟨.ofList [("pick", .chooser)], none, 0⟩ := rfl
  rw [Store.get?_of_frame? frame]
  simp [Table.find?_ofList, Table.lookup]

theorem State.agreeExcept_rebinding :
    AgreeExcept (fun id other => id = other ∨ other = id + 5) "if" rebinding 0 choosing 0 := by
  refine ⟨fun n => .inr (Nat.add_right_comm 1 5 n), ?_, ?_⟩
  · intro name distinct
    rw [get?_rebinding distinct, get?_choosing]
    split
    · exact .some (.refl (fun _ => .inl rfl) _)
    · exact .none
  · intro name distinct value found
    rw [get?_rebinding distinct] at found
    split at found
    · cases found
      decide
    · cases found

/-- Each evaluation gives the abstraction it made, under an identity of its own. -/
theorem eval_ignores_unread_rebinding :
    State.rebinding.store.Reachable ∧ State.choosing.store.Reachable ∧
      "if" ∉ Value.pickAbstraction.reads ∧
      ∃ outcome outcome' s' t',
        (Registry.standard.eval 0 .pickAbstraction).outcome .rebinding = (outcome, s') ∧
        (Registry.standard.eval 0 .pickAbstraction).outcome .choosing = (outcome', t') ∧
        ResultsAlike (fun id other => id = other ∨ other = id + 5)
          (Value.Alike fun id other => id = other ∨ other = id + 5) outcome outcome' := by
  have reachable : State.rebinding.store.Reachable :=
    .step (.openFrame ["if", "pick"] [.int 0, .chooser] none) ⟨⟨#[]⟩, 0, #[]⟩ .empty
      (fun _ absent => nomatch absent)
  have reachable' : State.choosing.store.Reachable :=
    .step (.openFrame ["pick"] [.chooser] none) ⟨⟨#[]⟩, 0, #[]⟩ .empty
      (fun _ absent => nomatch absent)
  have unread : "if" ∉ Value.pickAbstraction.reads := by decide
  obtain ⟨outcome, outcome', s', t', ran, ran', outcomes, -⟩ :=
    eval_ignores_unread (s := .rebinding) (t := .choosing) (fun _ => .inl rfl) (by decide)
      (by decide) rfl State.agreeExcept_rebinding .pickAbstraction unread (by decide)
  exact ⟨reachable, reachable', unread, outcome, outcome', s', t', ran, ran', outcomes⟩

end DynamicLisp
