import DynamicLisp.Proofs.Evaluation.Reachable
import DynamicLisp.Proofs.Flat.Interpreter
import DynamicLisp.Proofs.StandardRegistry
import DynamicLisp.Proofs.Store.Visible

/-!
# Chained frames behave like a flat table

A frame is abstracted to the table of all bindings that can be seen from it. Under
this abstraction the evaluator, with its store of linked frames that are written
in place, does what the flat interpreter does.
-/

namespace DynamicLisp

namespace Flat

namespace Keyword

def form : Keyword → SpecialForm
  | quote => .quote
  | choose => .choose
  | define => .define
  | lambda => .lambda

theorem form_arity (word : Keyword) : word.form.arity = .exact word.operandCount := by
  cases word <;> rfl

/-- Definition and abstraction have the same arity, but they reject a malformed
first operand with different errors. -/
theorem define_ne_lambda : SpecialForm.define ≠ SpecialForm.lambda := by
  intro same
  let probe (form : SpecialForm) : Except Error Value :=
    ((form.run ⟨0, fun _ => pure .nil⟩ [⟨.nil, pure .nil⟩, ⟨.nil, pure .nil⟩]).outcome .initial).1
  have answers : probe .define = probe .lambda := congrArg probe same
  have target : probe .define = .error (.structural (.target .nil)) := rfl
  have parameters : probe .lambda = .error (.structural (.parameters .nil)) := rfl
  rw [target, parameters] at answers
  cases answers

theorem form_injective {first second : Keyword} (same : first.form = second.form) :
    first = second := by
  have counts := congrArg SpecialForm.arity same
  rw [form_arity, form_arity] at counts
  cases first <;> cases second <;> try cases counts
  all_goals try rfl
  · exact absurd same define_ne_lambda
  · exact absurd same.symm define_ne_lambda

theorem eq_of_ofHead? {head : Value} {word : Keyword} (found : ofHead? head = some word) :
    head = .symbol word.name := by
  unfold ofHead? at found
  split at found <;> cases found <;> rfl

theorem find?_forms (name : String) :
    Registry.standard.forms.find? name = (ofHead? (.symbol name)).map form := by
  rw [Registry.find?_standard_forms]
  split_ifs with isLambda isDefine isIf isQuote
  · rw [isLambda]
    rfl
  · rw [isDefine]
    rfl
  · rw [isIf]
    rfl
  · rw [isQuote]
    rfl
  · have other : ofHead? (.symbol name) = none := by
      unfold ofHead?
      split <;> simp_all
    rw [other]
    rfl

end Keyword

def Callee.operator : Callee → Operator
  | .primitive name builtin => .primitive name builtin
  | .closure name params body => .closure name params body

theorem Callee.eq_closure {callee : Callee} {name : Option String} {params : List String}
    {body : Value} (same : callee.operator = .closure name params body) :
    callee = .closure name params body := by
  cases callee <;> cases same
  rfl

theorem Callee.eq_primitive {callee : Callee} {name : String} {builtin : Primitive}
    (same : callee.operator = .primitive name builtin) : callee = .primitive name builtin := by
  cases callee <;> cases same
  rfl

end Flat

open Flat

namespace State

/-- What the flat interpreter sees of a state from a frame. -/
def scope (s : State) (f : FrameId) : Scope := ⟨s.store.visible f, s.supply⟩

variable {s s' : State} {f : FrameId}

theorem find?_scope (s : State) (f : FrameId) (name : String) :
    (s.scope f).bindings.find? name = s.store.get? f name :=
  s.store.find?_visible f name

theorem scope_define (present : f < s.store.size) (name : String) (value : Value) :
    (s.define f name value).scope f = (s.scope f).define name value := by
  rw [scope, store_define, Store.visible_set_self present]
  rfl

theorem scope_defineFunction (present : f < s.store.size) (name : String) (params : List String)
    (body : Value) :
    (s.defineFunction f name params body).scope f =
      (s.scope f).nextClosure.define name (.closure s.supply params body) := by
  rw [scope, store_defineFunction, Store.visible_set_self present]
  rfl

/-- The new frame of a call shows the bindings of the caller, overridden by the
arguments. -/
theorem scope_enter (present : f < s.store.size) (name : Option String) (params : List String)
    (args : List Value) :
    (s.enter f name params args).scope s.store.size = (s.scope f).enter params args := by
  rw [scope, store_enter, callee, Store.visible_push_new present, Table.override_ofList]
  rfl

/-- Nothing that a body defines is seen by the caller. -/
theorem scope_leave {name : Option String} {params : List String} {args : List Value}
    {task : Task} {outcome : Except Error Value}
    (ran : Evaluates .standard s.store.size task (s.enter f name params args) outcome s')
    (present : f < s.store.size) :
    s'.scope f = (s.scope f).leave (s'.scope s.store.size) := by
  rw [scope, ran.writesOwn.visible_of_inner present]
  rfl

end State

namespace Registry

/-- The standard registry resolves a head as the flat interpreter does. -/
theorem resolve_standard (s : State) (f : FrameId) (head : Value) :
    standard.resolve s.store f head =
      match Keyword.ofHead? head with
      | some word => .ok (.form word.name word.form)
      | none => ((s.scope f).callee head).map Callee.operator := by
  cases head with
  | symbol name =>
      rw [resolve, Keyword.find?_forms]
      cases found : Keyword.ofHead? (.symbol name) with
      | some word =>
          obtain rfl : name = word.name := by simpa using Keyword.eq_of_ofHead? found
          rfl
      | none =>
          simp only [Option.map_none, Scope.callee, State.find?_scope]
          cases registered : standard.primitives.find? name with
          | some builtin => rfl
          | none =>
              cases bound : s.store.get? f name with
              | none => rfl
              | some value => cases value <;> rfl
  | _ => rfl

variable {s : State} {f : FrameId} {head : Value}

theorem exists_keyword_of_resolve {name : String} {form : SpecialForm}
    (resolved : standard.resolve s.store f head = .ok (.form name form)) :
    ∃ word, Keyword.ofHead? head = some word ∧ word.name = name ∧ word.form = form := by
  rw [resolve_standard] at resolved
  split at resolved
  · next word found =>
    simp only [Except.ok.injEq, Operator.form.injEq] at resolved
    exact ⟨word, found, resolved⟩
  · cases found : (s.scope f).callee head with
    | error error => rw [found] at resolved; cases resolved
    | ok callee => rw [found] at resolved; cases callee <;> cases resolved

theorem ofHead?_of_resolve (word : Keyword) {name : String}
    (resolved : standard.resolve s.store f head = .ok (.form name word.form)) :
    Keyword.ofHead? head = some word := by
  obtain ⟨found, read, -, same⟩ := exists_keyword_of_resolve resolved
  rw [read, Keyword.form_injective same]

theorem callee_of_resolve {operator : Operator}
    (resolved : standard.resolve s.store f head = .ok operator)
    (eager : operator.isEager = true) :
    Keyword.ofHead? head = none ∧
      ∃ callee, (s.scope f).callee head = .ok callee ∧ callee.operator = operator := by
  rw [resolve_standard] at resolved
  split at resolved
  · cases resolved
    cases eager
  · next noWord =>
    cases found : (s.scope f).callee head with
    | error error => rw [found] at resolved; cases resolved
    | ok callee =>
        rw [found] at resolved
        exact ⟨noWord, callee, rfl, Except.ok.inj resolved⟩

theorem callee_of_unresolved {error : Error}
    (resolved : standard.resolve s.store f head = .error error) :
    Keyword.ofHead? head = none ∧ (s.scope f).callee head = .error error := by
  rw [resolve_standard] at resolved
  split at resolved
  · cases resolved
  · next noWord =>
    cases found : (s.scope f).callee head with
    | error error => rw [found] at resolved; cases resolved; exact ⟨noWord, rfl⟩
    | ok callee => rw [found] at resolved; cases resolved

end Registry

namespace Flat

variable {depth : Nat} {scope scope' : Scope} {head : Value} {operands args : List Value}

theorem eval_itself {value : Value} (constant : value.meansItself = true) :
    eval depth scope value = (.ok value, scope) := by
  cases value with
  | symbol name => cases constant
  | list items =>
      cases items with
      | nil => simp only [eval]
      | cons head operands => cases constant
  | _ => simp only [eval]

theorem eval_wrongCount {word : Keyword} (found : Keyword.ofHead? head = some word)
    (count : operands.length ≠ word.operandCount) :
    eval depth scope (.list (head :: operands)) =
      (.error (.arity (.exact word.operandCount) operands.length (some word.name)), scope) := by
  rw [eval]
  · exact found
  all_goals
    intros
    simp_all [Keyword.operandCount]

theorem eval_choose {test yes no value : Value} (found : Keyword.ofHead? head = some .choose)
    (tested : eval depth scope test = (.ok value, scope')) :
    eval depth scope (.list [head, test, yes, no]) =
      eval depth scope' (if value.isFalse then no else yes) := by
  simp only [eval, found, tested]
  split <;> rfl

theorem eval_unresolved {error : Error} (noWord : Keyword.ofHead? head = none)
    (missing : scope.callee head = .error error) :
    eval depth scope (.list (head :: operands)) = (.error error, scope) := by
  simp only [eval, noWord, missing]

theorem eval_operandFails {callee : Callee} {error : Error}
    (noWord : Keyword.ofHead? head = none) (found : scope.callee head = .ok callee)
    (evaluated : evalAll depth scope operands = (.error error, scope')) :
    eval depth scope (.list (head :: operands)) = (.error error, scope') := by
  simp only [eval, noWord, found, evaluated]

theorem eval_call {callee : Callee} (noWord : Keyword.ofHead? head = none)
    (found : scope.callee head = .ok callee)
    (evaluated : evalAll depth scope operands = (.ok args, scope')) :
    eval depth scope (.list (head :: operands)) = call depth scope' callee args := by
  simp only [eval, noWord, found, evaluated]

end Flat

/-- The flat interpretation of a task. -/
def Task.flat (depth : Nat) (scope : Scope) : Task → Except Error Value × Scope
  | expr e => Flat.eval depth scope e
  | operands es =>
    ((Flat.evalAll depth scope es).1.map Value.list, (Flat.evalAll depth scope es).2)

section Simulation

variable {f : FrameId} {s s' : State} {depth : Nat} {scope scope' : Scope}

namespace Flat

theorem evalAll_of_flat {exprs : List Value} (result : Except Error (List Value))
    (flat : (Task.operands exprs).flat depth scope = (result.map Value.list, scope')) :
    evalAll depth scope exprs = (result, scope') := by
  rw [Task.flat] at flat
  obtain ⟨values, after⟩ := Prod.mk.inj flat
  rw [← Task.collected_injective values, ← after]

variable {head : Value} {operands args : List Value}

theorem eval_primitive {name : String} {builtin : Primitive}
    (resolved : Registry.standard.resolve s.store f head = .ok (.primitive name builtin))
    (evaluated : (Task.operands operands).flat depth (s.scope f) = (.ok (.list args), scope'))
    {result : Except Error Value} {s₁ s₂ : State}
    (ran : (builtin.runChecked f args).outcome s₁ = (result, s₂)) :
    eval depth (s.scope f) (.list (head :: operands)) =
      (result.mapError (Error.namedBy name), scope') := by
  obtain ⟨noWord, callee, found, same⟩ := Registry.callee_of_resolve resolved rfl
  obtain rfl := Callee.eq_primitive same
  have ignores :=
    Registry.ignoresEnvironment_of_find? (Registry.find?_primitive_of_resolve resolved)
  have same := ignores.runChecked_eq 0 f args (scope'.state depth) s₁
  rw [eval_call noWord found (evalAll_of_flat (.ok args) evaluated), call, same, ran]

theorem eval_closure {name : Option String} {params : List String} {body : Value}
    (resolved : Registry.standard.resolve s.store f head = .ok (.closure name params body))
    (evaluated : (Task.operands operands).flat depth (s.scope f) = (.ok (.list args), scope')) :
    eval depth (s.scope f) (.list (head :: operands)) =
      call depth scope' (.closure name params body) args := by
  obtain ⟨noWord, callee, found, same⟩ := Registry.callee_of_resolve resolved rfl
  obtain rfl := Callee.eq_closure same
  exact eval_call noWord found (evalAll_of_flat (.ok args) evaluated)

end Flat

/-- Whatever is evaluated in a frame, the flat interpreter computes from the bindings
that can be seen there. -/
theorem Evaluates.flat {task : Task} {outcome : Except Error Value}
    (h : Evaluates .standard f task s outcome s') (present : f < s.store.size) :
    task.flat (s.store.depth f) (s.scope f) = (outcome, s'.scope f) := by
  induction h with
  | bound found => simp only [Task.flat, Flat.eval, Scope.lookup, State.find?_scope, found]
  | unbound missing => simp only [Task.flat, Flat.eval, Scope.lookup, State.find?_scope, missing]
  | itself constant => exact Flat.eval_itself constant
  | unresolved resolved =>
      obtain ⟨noWord, missing⟩ := Registry.callee_of_unresolved resolved
      exact Flat.eval_unresolved noWord missing
  | @wrongCount f head operands name form s resolved count =>
      obtain ⟨word, found, rfl, rfl⟩ := Registry.exists_keyword_of_resolve resolved
      rw [word.form_arity] at count ⊢
      exact Flat.eval_wrongCount found (by simpa [Arity.admits] using count)
  | quote resolved =>
      have word := Registry.ofHead?_of_resolve .quote resolved
      simp only [Task.flat, Flat.eval, word]
  | testFails resolved _ tested =>
      have word := Registry.ofHead?_of_resolve .choose resolved
      simp only [Task.flat, Flat.eval, word] at tested ⊢
      rw [tested present]
  | choose resolved before _ tested chosen =>
      have word := Registry.ofHead?_of_resolve .choose resolved
      have flat := chosen (before.writesOwn.lt_size present)
      rw [before.writesOwn.depth_eq present] at flat
      rw [Task.flat, Flat.eval_choose word (tested present)]
      exact flat
  | malformedTarget resolved shape =>
      have word := Registry.ofHead?_of_resolve .define resolved
      simp only [Task.flat, Flat.eval, word, shape]
  | definitionFails resolved shape _ evaluated =>
      have word := Registry.ofHead?_of_resolve .define resolved
      simp only [Task.flat, Flat.eval, word, shape] at evaluated ⊢
      rw [evaluated present]
  | defineValue resolved shape before evaluated =>
      have word := Registry.ofHead?_of_resolve .define resolved
      simp only [Task.flat, Flat.eval, word, shape] at evaluated ⊢
      rw [evaluated present, State.scope_define (before.writesOwn.lt_size present)]
  | defineFunction resolved shape =>
      have word := Registry.ofHead?_of_resolve .define resolved
      simp only [Task.flat, Flat.eval, word, shape]
      rw [State.scope_defineFunction present]
      rfl
  | malformedParameters resolved shape =>
      have word := Registry.ofHead?_of_resolve .lambda resolved
      simp only [Task.flat, Flat.eval, word, shape]
  | lambda resolved shape =>
      have word := Registry.ofHead?_of_resolve .lambda resolved
      simp only [Task.flat, Flat.eval, word, shape]
      rfl
  | operandFails resolved eager _ evaluated =>
      obtain ⟨noWord, callee, found, _⟩ := Registry.callee_of_resolve resolved eager
      exact Flat.eval_operandFails noWord found
        (Flat.evalAll_of_flat (.error _) (evaluated present))
  | primitive resolved _ ran _ evaluated =>
      rw [Registry.eq_of_ran_standard resolved ran]
      exact Flat.eval_primitive resolved (evaluated present) ran
  | callCount resolved _ count evaluated =>
      rw [Task.flat, Flat.eval_closure resolved (evaluated present)]
      simp only [Flat.call, count, if_false]
  | callTooDeep resolved before count deep evaluated =>
      rw [Task.flat, Flat.eval_closure resolved (evaluated present)]
      rw [before.writesOwn.depth_eq present] at deep ⊢
      simp only [Flat.call, count, Nat.not_lt.mpr deep, if_true, if_false]
      rfl
  | call resolved before count shallow ran evaluated entered =>
      have caller := before.writesOwn.lt_size present
      have flat := entered (State.lt_size_enter _ _ _ _ _)
      rw [State.depth_enter, State.scope_enter caller, Task.flat] at flat
      rw [before.writesOwn.depth_eq present] at shallow flat
      rw [Task.flat, Flat.eval_closure resolved (evaluated present)]
      simp only [Flat.call, count, shallow, if_true, flat]
      rw [State.scope_leave ran caller]
  | noOperands =>
      simp only [Task.flat, Flat.evalAll]
      rfl
  | firstFails _ first =>
      have flat := first present
      simp only [Task.flat] at flat
      simp only [Task.flat, Flat.evalAll, flat]
      rfl
  | laterFails before _ first later =>
      have flat := first present
      have rest := Flat.evalAll_of_flat (.error _) (later (before.writesOwn.lt_size present))
      rw [before.writesOwn.depth_eq present] at rest
      simp only [Task.flat] at flat
      simp only [Task.flat, Flat.evalAll, flat, rest]
      rfl
  | operands before _ first later =>
      have flat := first present
      have rest := Flat.evalAll_of_flat (.ok _) (later (before.writesOwn.lt_size present))
      rw [before.writesOwn.depth_eq present] at rest
      simp only [Task.flat] at flat
      simp only [Task.flat, Flat.evalAll, flat, rest]
      rfl

theorem Registry.eval_flat (present : f < s.store.size) (expr : Value) :
    ∃ outcome s', (standard.eval f expr).outcome s = (outcome, s') ∧
      Flat.eval (s.store.depth f) (s.scope f) expr = (outcome, s'.scope f) := by
  obtain ⟨outcome, s', ran, h⟩ := standard_outcome present expr
  exact ⟨outcome, s', ran, h.flat present⟩

/-- A scope is determined by what lookups answer and by the supply. -/
theorem State.scope_congr {t : State} {g : FrameId}
    (seen : ∀ name, t.store.get? g name = s.store.get? f name) (supply : t.supply = s.supply) :
    t.scope g = s.scope f := by
  have bindings : t.store.visible g = s.store.visible f := by
    apply Table.eq_of_find?
    intro name
    rw [Store.find?_visible, Store.find?_visible, seen]
  rw [scope, scope, bindings, supply]

/-- With the standard registry, evaluation in a frame gives the outcome of the flat
interpreter on the bindings that can be seen from the frame, and what can be seen
afterwards are the bindings that the flat interpreter ends with. So evaluations of
an expression agree wherever the same bindings are seen at the same depth. -/
theorem eval_refines_flat (present : f < s.store.size) (expr : Value) :
    ∃ outcome s', (Registry.standard.eval f expr).outcome s = (outcome, s') ∧
      Flat.eval (s.store.depth f) ⟨s.store.visible f, s.supply⟩ expr =
        (outcome, ⟨s'.store.visible f, s'.supply⟩) ∧
      (∀ name, (s.store.visible f).find? name = s.store.get? f name) ∧
      (∀ name, (s'.store.visible f).find? name = s'.store.get? f name) ∧
      ∀ (t : State) (g : FrameId), g < t.store.size →
        (∀ name, t.store.get? g name = s.store.get? f name) →
        t.store.depth g = s.store.depth f → t.supply = s.supply →
        ∃ t', (Registry.standard.eval g expr).outcome t = (outcome, t') ∧
          (∀ name, t'.store.get? g name = s'.store.get? f name) ∧ t'.supply = s'.supply := by
  obtain ⟨outcome, s', ran, flat⟩ := Registry.eval_flat present expr
  refine ⟨outcome, s', ran, flat, s.store.find?_visible f, s'.store.find?_visible f, ?_⟩
  intro t g present' seen depth supply
  obtain ⟨outcome', t', ran', flat'⟩ := Registry.eval_flat present' expr
  rw [depth, State.scope_congr seen supply, flat] at flat'
  obtain ⟨rfl, after⟩ : outcome = outcome' ∧ s'.scope f = t'.scope g := by simpa using flat'
  refine ⟨t', ran', ?_, (congrArg Scope.supply after).symm⟩
  intro name
  rw [← State.find?_scope, ← State.find?_scope, after]

end Simulation

/-- An inner frame that hides a binding of the root. -/
def State.hiding : State :=
  ⟨⟨#[⟨.ofList [("x", .int 1)], none, 0⟩, ⟨.ofList [("x", .int 2)], some 0, 1⟩]⟩, 0, #[]⟩

theorem State.reachable_hiding : State.hiding.store.Reachable :=
  .step (.openFrame ["x"] [.int 2] (some 0)) ⟨⟨#[⟨.ofList [("x", .int 1)], none, 0⟩]⟩, 0, #[]⟩
    (.step (.openFrame ["x"] [.int 1] none) ⟨⟨#[]⟩, 0, #[]⟩ .empty (fun _ h => nomatch h))
    (fun _ h => by cases h; decide)

/-- A closure that redefines `x`. -/
def Value.redefiner : Value :=
  .closure 0 ["y"] (.list [.symbol "define", .symbol "x", .symbol "y"])

theorem Flat.eval_redefiner (scope : Scope) :
    Flat.eval 1 scope (.list [.redefiner, .int 3]) = (.ok (.symbol "x"), scope) := by
  have args : Flat.evalAll 1 scope [.int 3] = (.ok [.int 3], scope) := by
    simp only [Flat.evalAll, Flat.eval]
  have bound : (scope.enter ["y"] [.int 3]).lookup "y" = .ok (.int 3) := by
    simp [Scope.enter, Scope.lookup, Table.insertAll]
  have body : Flat.eval 2 (scope.enter ["y"] [.int 3])
      (.list [.symbol "define", .symbol "x", .symbol "y"]) =
        (.ok (.symbol "x"), (scope.enter ["y"] [.int 3]).define "x" (.int 3)) := by
    simp only [Flat.eval, Keyword.ofHead?, SpecialForms.target, bound]
  rw [Flat.eval_call rfl rfl args]
  simp [Flat.call, body, maxDepth]
  rfl

/-- The body of a call defines a name that the caller sees, and the caller still
sees what it saw before. -/
theorem eval_refines_flat_hiding :
    State.hiding.store.Reachable ∧ 1 < State.hiding.store.size ∧
      ∃ s', (Registry.standard.eval 1 (.list [.redefiner, .int 3])).outcome .hiding =
          (.ok (.symbol "x"), s') ∧
        s'.store.get? 1 "x" = some (.int 2) := by
  have present : 1 < State.hiding.store.size := by decide
  obtain ⟨outcome, s', ran, flat, before, after, -⟩ :=
    eval_refines_flat present (.list [.redefiner, .int 3])
  have depth : State.hiding.store.depth 1 = 1 := rfl
  rw [depth, Flat.eval_redefiner] at flat
  obtain ⟨rfl, same, -⟩ : .ok (.symbol "x") = outcome ∧
      State.hiding.store.visible 1 = s'.store.visible 1 ∧ _ := by simpa using flat
  refine ⟨State.reachable_hiding, present, s', ran, ?_⟩
  rw [← after, ← same, before, Store.get?_of_frame? rfl]
  rfl

end DynamicLisp
