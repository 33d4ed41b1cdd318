import DynamicLisp.Proofs.Flat.Refinement
import DynamicLisp.Proofs.Store.Chains

/-!
# Which names an evaluation writes

A definition writes the frame it is evaluated in. Which definitions are evaluated in
the frame of an expression can be read off the expression: those that are reached
through the operands of calls and of `if` and through the values of definitions.
Quoted text, and the bodies of abstractions and of function definitions, are not
reached; a body is evaluated in frames of its own. So there is a list of names,
computed from the expression alone, outside which its frame keeps all bindings.
-/

namespace DynamicLisp

open Flat

namespace Value

/-- Whether a head can stand for something that is called with values. -/
def isCallHead : Value → Bool
  | symbol _ => true
  | closure .. => true
  | _ => false

mutual

/-- The names that an expression may define in the frame it is evaluated in. -/
def targets : Value → List String
  | list (head :: operands) =>
    match Keyword.ofHead? head, operands with
    | some .choose, [test, yes, no] => targets test ++ targets yes ++ targets no
    | some .define, [signature, expr] =>
      match SpecialForms.target signature with
      | .ok (.value name) => name :: targets expr
      | .ok (.function name _) => [name]
      | .error _ => []
    | some _, _ => []
    | none, operands => if isCallHead head then targetsOfAll operands else []
  | _ => []
termination_by structural expr => expr

/-- The names that some of the expressions may define. -/
def targetsOfAll : List Value → List String
  | [] => []
  | expr :: exprs => targets expr ++ targetsOfAll exprs
termination_by structural exprs => exprs

end

section Equations

variable {head : Value}

theorem targets_choose (word : Keyword.ofHead? head = some .choose) (test yes no : Value) :
    (list [head, test, yes, no]).targets = test.targets ++ yes.targets ++ no.targets := by
  simp [targets, word]

theorem targets_defineValue (word : Keyword.ofHead? head = some .define) {signature : Value}
    {name : String} (shape : SpecialForms.target signature = .ok (.value name)) (expr : Value) :
    (list [head, signature, expr]).targets = name :: expr.targets := by
  simp [targets, word, shape]

theorem targets_defineFunction (word : Keyword.ofHead? head = some .define) {signature : Value}
    {name : String} {params : List String}
    (shape : SpecialForms.target signature = .ok (.function name params)) (body : Value) :
    (list [head, signature, body]).targets = [name] := by
  simp [targets, word, shape]

/-- The operands of everything but special forms are evaluated in the frame of the
call. -/
theorem targets_of_resolve {s : State} {f : FrameId} {operator : Operator}
    (resolved : Registry.standard.resolve s.store f head = .ok operator)
    (eager : operator.isEager = true) (operands : List Value) :
    (list (head :: operands)).targets = targetsOfAll operands := by
  obtain ⟨noWord, callee, found, _⟩ := Registry.callee_of_resolve resolved eager
  have callable : isCallHead head = true := by
    cases head with
    | symbol | closure => rfl
    | _ => cases found
  simp [targets, noWord, callable]

end Equations

end Value

/-- The names that a task may define in the frame it is evaluated in. -/
def Task.targets : Task → List String
  | expr e => e.targets
  | operands exprs => Value.targetsOfAll exprs

namespace Store

variable {store before middle after : Store} {f : FrameId} {names : List String}

/-- Frame `f` still binds every name it bound, and its bindings of other names than
the given ones are as they were. -/
structure BindsOnly (f : FrameId) (names : List String) (before after : Store) : Prop where
  grows : ∀ name, (before.own f).contains name = true → (after.own f).contains name = true
  changed : ∀ name, (after.own f).find? name ≠ (before.own f).find? name → name ∈ names

namespace BindsOnly

theorem of_frame?_eq (same : after.frame? f = before.frame? f) :
    BindsOnly f names before after := by
  have own : after.own f = before.own f := by rw [own, own, same]
  exact ⟨fun _ bound => own ▸ bound, fun _ differs => absurd (by rw [own]) differs⟩

theorem refl (f : FrameId) (names : List String) (store : Store) : BindsOnly f names store store :=
  of_frame?_eq rfl

theorem trans (first : BindsOnly f names before middle) (second : BindsOnly f names middle after) :
    BindsOnly f names before after := by
  refine ⟨fun name bound => second.grows name (first.grows name bound), ?_⟩
  intro name differs
  by_cases same : (middle.own f).find? name = (before.own f).find? name
  · exact second.changed name (same ▸ differs)
  · exact first.changed name same

theorem mono {more : List String} (h : BindsOnly f names before after)
    (subset : names ⊆ more) : BindsOnly f more before after :=
  ⟨h.grows, fun name differs => subset (h.changed name differs)⟩

theorem set (present : f < store.size) {name : String} (member : name ∈ names) (value : Value) :
    BindsOnly f names store (store.set f name value) := by
  obtain ⟨frame, found⟩ := frame?_isSome present
  have written : (store.set f name value).own f = (store.own f).insert name value := by
    rw [own_of_frame? (frame?_set_self found name value), own_of_frame? found]
  constructor
  · intro other bound
    rw [written, Table.contains, Table.find?_insert]
    split
    · rfl
    · exact bound
  · intro other differs
    rw [written, Table.find?_insert] at differs
    split at differs
    · next same => exact same ▸ member
    · exact absurd rfl differs

end BindsOnly

end Store

namespace Evaluates

variable {f : FrameId} {task : Task} {s s' : State} {outcome : Except Error Value}

/-- The frame of a call is a new one, so what happens in it touches no frame that was
there before. -/
theorem frame?_of_call {name : Option String} {params : List String} {args : List Value}
    {g : FrameId}
    (ran : Evaluates .standard s.store.size task (s.enter f name params args) outcome s')
    (old : g < s.store.size) : s'.store.frame? g = s.store.frame? g :=
  (ran.writesOwn.of_inner s.store.size).other g old (Nat.ne_of_lt old)

/-- Evaluation in a frame binds no name there that its text does not define. -/
theorem bindsOnly (h : Evaluates .standard f task s outcome s') (present : f < s.store.size) :
    Store.BindsOnly f task.targets s.store s'.store := by
  induction h with
  | bound | unbound | itself | unresolved | wrongCount | quote | lambda | noOperands
  | malformedTarget | malformedParameters => exact .refl _ _ _
  | testFails resolved _ ih =>
      have word := Registry.ofHead?_of_resolve .choose resolved
      apply (ih present).mono
      simp [Task.targets, Value.targets_choose word]
  | choose resolved before _ tested chosen =>
      have word := Registry.ofHead?_of_resolve .choose resolved
      refine ((tested present).mono ?_).trans
        ((chosen (before.writesOwn.lt_size present)).mono ?_)
      · simp [Task.targets, Value.targets_choose word]
      · simp only [Task.targets, Value.targets_choose word]
        split <;> simp
  | definitionFails resolved shape _ ih =>
      have word := Registry.ofHead?_of_resolve .define resolved
      apply (ih present).mono
      simp [Task.targets, Value.targets_defineValue word shape]
  | defineValue resolved shape before ih =>
      have word := Registry.ofHead?_of_resolve .define resolved
      refine ((ih present).mono ?_).trans (.set (before.writesOwn.lt_size present) ?_ _)
      · simp [Task.targets, Value.targets_defineValue word shape]
      · simp [Task.targets, Value.targets_defineValue word shape]
  | defineFunction resolved shape =>
      have word := Registry.ofHead?_of_resolve .define resolved
      apply Store.BindsOnly.set present
      simp [Task.targets, Value.targets_defineFunction word shape]
  | operandFails resolved eager _ ih =>
      rw [Task.targets, Value.targets_of_resolve resolved eager]
      exact ih present
  | callCount resolved _ _ ih | callTooDeep resolved _ _ _ ih =>
      rw [Task.targets, Value.targets_of_resolve resolved rfl]
      exact ih present
  | primitive resolved _ ran _ ih =>
      rw [Task.targets, Value.targets_of_resolve resolved rfl,
        Registry.eq_of_ran_standard resolved ran]
      exact ih present
  | call resolved before _ _ ran ih =>
      rw [Task.targets, Value.targets_of_resolve resolved rfl]
      exact (ih present).trans
        (.of_frame?_eq (ran.frame?_of_call (before.writesOwn.lt_size present)))
  | firstFails _ ih => exact (ih present).mono (by simp [Task.targets, Value.targetsOfAll])
  | laterFails before _ first later | operands before _ first later =>
      refine ((first present).mono ?_).trans
        ((later (before.writesOwn.lt_size present)).mono ?_)
      · simp [Task.targets, Value.targetsOfAll]
      · simp [Task.targets, Value.targetsOfAll]

end Evaluates

section Frames

variable {s : State} {f : FrameId}

/-- A call leaves every frame that was there before as it was. -/
theorem Registry.frame?_call (present : f < s.store.size) (params : List String) (body : Value)
    (args : List Value) {g : FrameId} (old : g < s.store.size) :
    ((standard.call f params body args).outcome s).2.store.frame? g = s.store.frame? g := by
  obtain ran | ⟨_, ran⟩ | ⟨_, outcome, s', ran, h⟩ :=
    call_outcome standard_usesStandardForms standard_respectsFrames present params body args
  · rw [ran]
  · rw [ran]
    rfl
  · rw [ran]
    exact h.frame?_of_call old

/-- Evaluation keeps the place of every frame and the bindings of every frame but its
own. There it loses no name, and the names that it binds anew are among those that its
text defines. A call changes no frame at all that was there before. All this holds
whether or not the evaluation or the call succeeds. -/
theorem eval_binds_targets (present : f < s.store.size) (expr : Value) :
    (∀ g frame, s.store.frame? g = some frame →
      ∃ bindings, ((Registry.standard.eval f expr).outcome s).2.store.frame? g =
          some ⟨bindings, frame.outer, frame.depth⟩ ∧
        (g ≠ f → bindings = frame.bindings) ∧
        (g = f → ∀ name,
          (frame.bindings.contains name = true → bindings.contains name = true) ∧
          (bindings.find? name ≠ frame.bindings.find? name → name ∈ expr.targets))) ∧
    ∀ params body args g frame, s.store.frame? g = some frame →
      ((Registry.standard.call f params body args).outcome s).2.store.frame? g = some frame := by
  constructor
  · intro g frame found
    obtain ⟨outcome, s', ran, h⟩ := Registry.standard_outcome present expr
    obtain ⟨bindings, kept⟩ := h.writesOwn.place found
    rw [ran]
    refine ⟨bindings, kept, ?_, ?_⟩
    · intro distinct
      have same := h.writesOwn.other g (Store.lt_size_of_frame? found) distinct
      rw [kept, found] at same
      exact congrArg Frame.bindings (Option.some.inj same)
    · rintro rfl name
      have binds := h.bindsOnly present
      have grows := binds.grows name
      have changed := binds.changed name
      rw [Store.own_of_frame? kept, Store.own_of_frame? found] at grows changed
      exact ⟨grows, changed⟩
  · intro params body args g frame found
    rw [Registry.frame?_call present params body args (Store.lt_size_of_frame? found), found]

end Frames

/-- A definition as an operand, followed by an operand that may fail. -/
def Value.defineThenRead : Value :=
  .list [.symbol "cons", .list [.symbol "define", .symbol "y", .int 1], .symbol "missing"]

/-- Whatever becomes of the last operand, only `y` is written. -/
theorem eval_binds_targets_hiding :
    State.hiding.store.Reachable ∧ 1 < State.hiding.store.size ∧
      Value.defineThenRead.targets = ["y"] ∧
      ∃ bindings, ((Registry.standard.eval 1 .defineThenRead).outcome .hiding).2.store.frame? 1 =
          some ⟨bindings, some 0, 1⟩ ∧ bindings.find? "x" = some (.int 2) := by
  have present : 1 < State.hiding.store.size := by decide
  have targets : Value.defineThenRead.targets = ["y"] := rfl
  obtain ⟨frames, _⟩ := eval_binds_targets present .defineThenRead
  obtain ⟨bindings, kept, _, own⟩ := frames 1 ⟨.ofList [("x", .int 2)], some 0, 1⟩ rfl
  refine ⟨State.reachable_hiding, present, targets, bindings, kept, ?_⟩
  obtain ⟨_, changed⟩ := own rfl "x"
  rw [targets] at changed
  by_contra differs
  exact absurd (changed differs) (by decide)

end DynamicLisp
