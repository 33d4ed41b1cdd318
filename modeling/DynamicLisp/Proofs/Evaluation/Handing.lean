import DynamicLisp.Proofs.Evaluation.Adequacy
import DynamicLisp.Proofs.StandardRegistry
import DynamicLisp.Proofs.Store.Visible
import DynamicLisp.Proofs.Value.Identity

/-!
# Values on their way through a program

A value that a program computes is bound to names, passed to functions, put into lists,
taken out of them and returned. Nothing on this way copies it into another value: what
arrives is the same, also for closures, which have an identity to lose.
-/

namespace DynamicLisp

open Value

variable {f : FrameId} {s s₁ : State}

/-- Each parameter stands for a value that is the same as its argument. Of parameters with
one name the last one counts. -/
def State.Binds (s : State) (frame : FrameId) (params : List String) (args : List Value) : Prop :=
  ∀ i param arg, params[i]? = some param → param ∉ params.drop (i + 1) → args[i]? = some arg →
    ∃ kept, s.store.get? frame param = some kept ∧ kept.same arg = true

/-- Values stay the same on their way through a program: when a name is bound to them, when
they are passed and returned, and when they are put into a list and taken out again. -/
structure State.HandsOn (s : State) : Prop where
  defined : ∀ {f name expr value s₁}, f < s.store.size →
    Evaluates .standard f (.expr expr) s (.ok value) s₁ →
    ∃ s' kept,
      (Registry.standard.eval f (.list [.symbol "define", .symbol name, expr])).outcome s =
        (.ok (.symbol name), s') ∧
      s'.store.get? f name = some kept ∧ kept.same value = true
  /-- A new function is what its definition returns. -/
  definedFunction : ∀ {f signature name params body}, f < s.store.size →
    SpecialForms.target signature = .ok (.function name params) →
    ∃ s' value kept,
      (Registry.standard.eval f (.list [.symbol "define", signature, body])).outcome s =
        (.ok value, s') ∧
      s'.store.get? f name = some kept ∧ kept.same value = true
  /-- The frame that an application opens holds its arguments when the body is evaluated in
  it, and the value of the body comes back. -/
  applied : ∀ {f head operands name params body args s₁}, f < s.store.size →
    Registry.standard.resolve s.store f head = .ok (.closure name params body) →
    Evaluates .standard f (.operands operands) s (.ok (.list args)) s₁ →
    params.length = args.length → s₁.store.depth f + 1 < maxDepth →
    (s₁.enter f name params args).Binds s₁.store.size params args ∧
      ∀ value s', Evaluates .standard s₁.store.size (.expr body) (s₁.enter f name params args)
          (.ok value) s' →
        ∃ returned, (Registry.standard.eval f (.list (head :: operands))).outcome s =
          (.ok returned, s') ∧ returned.same value = true
  /-- So it is when the host calls a closure. -/
  called : ∀ {f params body args}, f < s.store.size → params.length = args.length →
    s.store.depth f + 1 < maxDepth →
    (s.enter f none params args).Binds s.store.size params args ∧
      ∀ value s', Evaluates .standard s.store.size (.expr body) (s.enter f none params args)
          (.ok value) s' →
        ∃ returned, (Registry.standard.call f params body args).outcome s =
          (.ok returned, s') ∧ returned.same value = true
  consed : ∀ {f first second item tail items s₁}, f < s.store.size →
    Evaluates .standard f (.operands [first, second]) s (.ok (.list [item, tail])) s₁ →
    (tail = .nil ∧ items = [] ∨ tail = .list items) →
    ∃ kept others, (Registry.standard.eval f (.list [.symbol "cons", first, second])).outcome s =
        (.ok (.list (kept :: others)), s₁) ∧
      kept.same item = true ∧ sameAll others items = true
  taken : ∀ {f expr item items s₁}, f < s.store.size →
    Evaluates .standard f (.expr expr) s (.ok (.list (item :: items))) s₁ →
    (∃ kept, (Registry.standard.eval f (.list [.symbol "car", expr])).outcome s = (.ok kept, s₁) ∧
      kept.same item = true) ∧
    ∃ rest, (Registry.standard.eval f (.list [.symbol "cdr", expr])).outcome s = (.ok rest, s₁) ∧
      (items = [] ∧ rest = .nil ∨ ∃ others, rest = .list others ∧ sameAll others items = true)

theorem State.binds_enter (s : State) (f : FrameId) (name : Option String) (params : List String)
    (args : List Value) : (s.enter f name params args).Binds s.store.size params args := by
  intro i param arg named last placed
  refine ⟨arg, ?_, same_self arg⟩
  have found : (s.callee f params args).bindings.find? param = some arg :=
    Table.find?_ofList_zip named last placed
  rw [store_enter, Store.get?_of_frame? (Store.frame?_push_new _ _), found]
  rfl

/-- A standard primitive is applied to the values of its operands. -/
theorem Evaluates.applied {name : String} {primitive : Primitive} {operands args : List Value}
    {value : Value} (evaluated : Evaluates .standard f (.operands operands) s (.ok (.list args)) s₁)
    (noForm : Registry.standard.forms.find? name = none)
    (found : Registry.standard.primitives.find? name = some primitive)
    (ran : (primitive.runChecked f args).outcome s₁ = (.ok value, s₁)) :
    Evaluates .standard f (.expr (.list (.symbol name :: operands))) s (.ok value) s₁ := by
  have resolved : Registry.standard.resolve s.store f (.symbol name) =
      .ok (.primitive name primitive) := by
    simp only [Registry.resolve, noForm, found]
  exact .primitive resolved evaluated ran (.refl _)

theorem State.handsOn (s : State) : s.HandsOn where
  defined := by
    intro f name expr value s₁ present h
    have defined : Evaluates .standard f (.expr (.list [.symbol "define", .symbol name, expr])) s
        (.ok (.symbol name)) (s₁.define f name value) := .defineValue rfl rfl h
    refine ⟨_, value, defined.eval_eq present, ?_, same_self value⟩
    exact Store.get?_set_self (h.writesOwn.lt_size present) name value
  definedFunction := by
    intro f signature name params body present shape
    have defined : Evaluates .standard f (.expr (.list [.symbol "define", signature, body])) s
        (.ok (.closure s.supply params body)) (s.defineFunction f name params body) :=
      .defineFunction rfl shape
    refine ⟨_, _, _, defined.eval_eq present, ?_, same_self _⟩
    exact Store.get?_set_self present name _
  applied := by
    intro f head operands name params body args s₁ present resolved evaluated count shallow
    refine ⟨s₁.binds_enter f name params args, fun value s' ran => ⟨value, ?_, same_self value⟩⟩
    exact (Evaluates.call resolved evaluated count shallow ran).eval_eq present
  called := by
    intro f params body args present count shallow
    refine ⟨s.binds_enter f none params args, fun value s' ran => ⟨value, ?_, same_self value⟩⟩
    rw [Registry.call, callClosure_opened count shallow]
    exact ran.eval_eq (s.lt_size_enter f none params args)
  consed := by
    intro f first second item tail items s₁ present evaluated shape
    refine ⟨item, items, ?_, same_self item, sameAll_self items⟩
    obtain ⟨rfl, rfl⟩ | rfl := shape
    · exact (evaluated.applied rfl rfl rfl).eval_eq present
    · exact (evaluated.applied rfl rfl rfl).eval_eq present
  taken := by
    intro f expr item items s₁ present h
    have evaluated : Evaluates .standard f (.operands [expr]) s
        (.ok (.list [.list (item :: items)])) s₁ := .operands h .noOperands
    refine ⟨⟨item, (evaluated.applied rfl rfl rfl).eval_eq present, same_self item⟩, ?_⟩
    obtain _ | ⟨next, items⟩ := items
    · exact ⟨.nil, (evaluated.applied rfl rfl rfl).eval_eq present, .inl ⟨rfl, rfl⟩⟩
    · exact ⟨.list (next :: items), (evaluated.applied rfl rfl rfl).eval_eq present,
        .inr ⟨_, rfl, sameAll_self _⟩⟩

end DynamicLisp
