import DynamicLisp.Proofs.Evaluation.Demand
import DynamicLisp.Proofs.StandardRegistry
import DynamicLisp.Proofs.Store.Visible
import Mathlib.Logic.Relation

/-!
# Code and data

Code and data have the same form, and still evaluation keeps them apart. What it
evaluates are items of code and bodies of closures. What it stores, passes and returns
is quoted code, what primitives make of data, or a closure around code. So a property
of code and a property of data that fit together in this way hold of everything that
an evaluation evaluates and of everything that it stores, whatever it calls.
-/

namespace DynamicLisp

variable {Code Data : Value → Prop}

/-- Code and data that evaluation keeps apart. -/
structure Value.Discipline (Code Data : Value → Prop) : Prop where
  /-- Code may be quoted. -/
  quoted : ∀ {expr}, Code expr → Data expr
  items : ∀ {items}, Code (.list items) → ∀ item ∈ items, Code item
  nil : Data .nil
  bool : ∀ b, Data (.bool b)
  int : ∀ n, Data (.int n)
  list : ∀ {items}, Data (.list items) ↔ ∀ item ∈ items, Data item
  closure : ∀ {id params body}, Data (.closure id params body) ↔ Code body

/-- Everything that is to be evaluated is code. -/
def Task.Consists (Code : Value → Prop) : Task → Prop
  | expr e => Code e
  | operands exprs => ∀ expr ∈ exprs, Code expr

section Lists

variable {first : Value} {rest : List Value}

theorem Value.Discipline.head (fits : Discipline Code Data)
    (code : Code (.list (first :: rest))) : Code first :=
  fits.items code first List.mem_cons_self

theorem Value.Discipline.operands (fits : Discipline Code Data)
    (code : Code (.list (first :: rest))) : Task.Consists Code (.operands rest) :=
  fun expr member => fits.items code expr (List.mem_cons_of_mem _ member)

/-- Operands that stand before others. -/
theorem Value.Discipline.operands_before (fits : Discipline Code Data) {before after : List Value}
    (code : Code (.list (first :: (before ++ after)))) : Task.Consists Code (.operands before) :=
  fun expr member => fits.operands code expr (List.mem_append_left _ member)

/-- A test and the branch that it chooses. -/
theorem Value.Discipline.choice (fits : Discipline Code Data) {test yes no : Value}
    (code : Code (.list [first, test, yes, no])) (isFalse : Bool) :
    Code test ∧ Code (if isFalse then no else yes) := by
  refine ⟨fits.items code test (by simp), ?_⟩
  cases isFalse with
  | false => exact fits.items code yes (by simp)
  | true => exact fits.items code no (by simp)

end Lists

namespace Store

variable {store : Store} {f : FrameId} {frame : Frame}

/-- Every value that some frame binds is data. -/
def Holds (Data : Value → Prop) (store : Store) : Prop :=
  ∀ f frame, store.frame? f = some frame →
    ∀ name value, frame.bindings.find? name = some value → Data value

theorem Holds.get? (holds : store.Holds Data) {name : String} {value : Value}
    (found : store.get? f name = some value) : Data value := by
  rw [Store.get?, Option.bind_eq_some_iff] at found
  obtain ⟨owner, _, found⟩ := found
  rw [Option.bind_eq_some_iff] at found
  obtain ⟨frame, present, bound⟩ := found
  exact holds owner frame present name value bound

theorem Holds.push (holds : store.Holds Data)
    (data : ∀ name value, frame.bindings.find? name = some value → Data value) :
    (store.push frame).Holds Data := by
  intro g own found
  have bound := lt_size_of_frame? found
  rw [size_push] at bound
  by_cases new : g = store.size
  · subst new
    rw [frame?_push_new] at found
    obtain rfl := Option.some.inj found
    exact data
  · have old : g < store.size := Nat.lt_of_le_of_ne (Nat.lt_succ_iff.mp bound) new
    rw [frame?_push_old old] at found
    exact holds g own found

theorem Holds.set (holds : store.Holds Data) (f : FrameId) (name : String) {value : Value}
    (data : Data value) : (store.set f name value).Holds Data := by
  intro g own found
  by_cases same : g = f
  · subst same
    have present : g < store.size := by
      have bound := lt_size_of_frame? found
      rwa [size_set] at bound
    obtain ⟨old, hold⟩ := frame?_isSome present
    rw [frame?_set_self hold] at found
    obtain rfl := Option.some.inj found
    intro other bound seen
    rw [Table.find?_insert] at seen
    split at seen
    · rw [← Option.some.inj seen]
      exact data
    · exact holds g old hold other bound seen
  · rw [frame?_set_other same] at found
    exact holds g own found

/-- What a frame and its store may be required to satisfy so that everything the frame shows
is data. Evaluation keeps such a requirement: it binds data in its frame, and it opens frames
of data, in which it goes on before it comes back. -/
structure Safeguard (Data : Value → Prop) (Safe : FrameId → Store → Prop) : Prop where
  shows : ∀ {f store name value}, Safe f store → store.get? f name = some value → Data value
  set : ∀ {f store value}, Safe f store → ∀ name, Data value → Safe f (store.set f name value)
  enter : ∀ {f store bindings}, Safe f store →
    (∀ name value, bindings.find? name = some value → Data value) →
    ∀ depth, Safe store.size (store.push ⟨bindings, some f, depth⟩)
  leave : ∀ {f store frame after}, Safe f store →
    WritesOnly store.size (store.push frame) after → Safe store.size after → Safe f after

/-- One may require that all frames bind data. -/
theorem safeguard_holds (Data : Value → Prop) :
    Safeguard Data fun _ store => store.Holds Data where
  shows holds found := holds.get? found
  set holds name data := holds.set _ name data
  enter holds data _ := holds.push data
  leave _ _ holds := holds

theorem holds_initial (Data : Value → Prop) : initial.Holds Data := by
  intro f frame found name value bound
  obtain rfl : frame = .root := by
    rw [frame?, initial, List.getElem?_toArray, List.getElem?_singleton] at found
    split at found
    · exact (Option.some.inj found).symm
    · cases found
  cases bound

end Store

/-- The frame of a call binds arguments only. -/
theorem State.find?_callee {s : State} {f : FrameId} {params : List String} {args : List Value}
    {name : String} {value : Value}
    (bound : (s.callee f params args).bindings.find? name = some value) : value ∈ args :=
  Table.mem_of_find?_ofList_zip bound

section Primitives

/-- A primitive that makes data of data. -/
def Primitive.Keeps (Data : Value → Prop) (primitive : Primitive) : Prop :=
  ∀ f args s value s', (∀ arg ∈ args, Data arg) →
    (primitive.run f args).outcome s = (.ok value, s') → Data value

variable {primitive : Primitive}

theorem Primitive.Keeps.of_runChecked (keeps : primitive.Keeps Data) {f : FrameId}
    {args : List Value} {value : Value} {s s' : State} (data : ∀ arg ∈ args, Data arg)
    (ran : (primitive.runChecked f args).outcome s = (.ok value, s')) : Data value := by
  rw [outcome_runChecked] at ran
  split at ran
  · exact keeps f args s value s' data ran
  · cases ran

theorem Primitive.keeps_ofIntegers (int : ∀ n, Data (.int n))
    {function : List Integer → Except Error Value}
    (makes : ∀ ns value, function ns = .ok value → ∃ n, value = .int n) :
    (ofIntegers .any function).Keeps Data := by
  intro f args s value s' _ ran
  obtain ⟨ns, made⟩ | ⟨other, -, failed⟩ := of_ran_ofIntegers ran
  · obtain ⟨n, rfl⟩ := makes ns value made
    exact int n
  · cases failed

theorem Arithmetic.exists_int_of_fold {operation : String} {combine : Int → Int → Int}
    {start : Integer} {ns : List Integer} {value : Value}
    (folded : fold operation combine start ns = .ok value) : ∃ n, value = .int n := by
  induction ns generalizing start with
  | nil =>
      cases folded
      exact ⟨start, rfl⟩
  | cons n ns ih =>
      rw [fold] at folded
      split at folded
      · exact ih folded
      · cases folded

/-- The standard primitives take data apart and put it together again. -/
theorem Primitive.keeps_standard (nil : Data .nil) (bool : ∀ b, Data (.bool b))
    (int : ∀ n, Data (.int n)) (list : ∀ {items}, Data (.list items) ↔ ∀ item ∈ items, Data item)
    {name : String} (found : Registry.standard.primitives.find? name = some primitive) :
    primitive.Keeps Data := by
  refine forall_standard ?car ?cdr ?cons ?compare ?add ?subtract ?multiply found
  case car =>
    intro f args s value s' data ran
    obtain ⟨arg, rfl, made⟩ | ⟨-, failed⟩ := of_ran_ofFunction_one ran
    · rw [Lists.car.eq_def] at made
      split at made
      · cases made
        exact list.mp (data _ List.mem_cons_self) _ List.mem_cons_self
      · cases made
      · cases made
    · cases failed
  case cdr =>
    intro f args s value s' data ran
    obtain ⟨arg, rfl, made⟩ | ⟨-, failed⟩ := of_ran_ofFunction_one ran
    · have inside := data arg List.mem_cons_self
      rw [Lists.cdr.eq_def] at made
      split at made
      · cases made
      · cases made
        exact nil
      · cases made
        exact list.mpr fun item member =>
          list.mp inside item (List.mem_cons_of_mem _ member)
      · cases made
    · cases failed
  case cons =>
    intro f args s value s' data ran
    obtain ⟨item, tail, rfl, made⟩ | ⟨-, failed⟩ := of_ran_ofFunction_two ran
    · obtain ⟨first, second⟩ := List.forall_mem_cons.mp data
      rw [Lists.cons.eq_def] at made
      split at made
      · cases made
        exact list.mpr (List.forall_mem_cons.mpr
          ⟨first, list.mp (second _ List.mem_cons_self)⟩)
      · cases made
        exact list.mpr (by simpa using first)
      · cases made
    · cases failed
  case compare =>
    intro relation f args s value s' _ ran
    cases ran
    exact bool _
  case add => exact keeps_ofIntegers int fun _ _ => Arithmetic.exists_int_of_fold
  case subtract =>
    refine keeps_ofIntegers int ?_
    intro ns value ran
    cases ns with
    | nil =>
        cases ran
        exact ⟨0, rfl⟩
    | cons n ns => exact Arithmetic.exists_int_of_fold ran
  case multiply =>
    exact keeps_ofIntegers int fun _ _ => Arithmetic.exists_int_of_fold

end Primitives

section Evaluations

variable {f : FrameId} {s s' : State}

theorem SpecialForms.eq_symbol_of_target {signature : Value} {name : String}
    (shape : target signature = .ok (.value name)) : signature = .symbol name := by
  unfold target at shape
  split at shape
  · cases shape
    rfl
  · next params =>
    cases named : paramNames "define" params <;> rw [named] at shape <;> cases shape
  all_goals cases shape

/-- The body of what the head of code stands for is code: the closure is bound in the
store or stands in the code itself. -/
theorem Value.Discipline.code_of_resolve (fits : Discipline Code Data) {registry : Registry}
    {store : Store} {head body : Value} {name : Option String} {params : List String}
    (code : Code head)
    (shows : ∀ {name value}, store.get? f name = some value → Data value)
    (resolved : registry.resolve store f head = .ok (.closure name params body)) : Code body := by
  have resolution := registry.resolution store f head
  rw [resolved] at resolution
  cases resolution with
  | bound _ _ found => exact fits.closure.mp (shows found)
  | closure => exact fits.closure.mp (fits.quoted code)

/-- The frame of a call on data satisfies what the frame of the caller does. -/
theorem Value.Discipline.safe_enter {Safe : FrameId → Store → Prop} (fits : Discipline Code Data)
    (guard : Store.Safeguard Data Safe) (safe : Safe f s.store) {args : List Value}
    (data : Data (.list args)) (name : Option String) (params : List String) :
    Safe s.store.size (s.enter f name params args).store := by
  refine guard.enter safe ?_ _
  intro bound value found
  exact fits.list.mp data value (Table.mem_of_find?_ofList_zip found)

theorem Value.Discipline.holds_enter (fits : Discipline Code Data) (holds : s.store.Holds Data)
    {args : List Value} (data : Data (.list args)) (f : FrameId) (name : Option String)
    (params : List String) : (s.enter f name params args).store.Holds Data :=
  fits.safe_enter (f := f) (Store.safeguard_holds Data) holds data name params

/-- From code, in a frame that satisfies the requirement, evaluation leaves the frame so and
gives data. -/
theorem Evaluates.keeps_safe {registry : Registry} {Safe : FrameId → Store → Prop} {task : Task}
    {outcome : Except Error Value} (h : Evaluates registry f task s outcome s')
    (fits : Value.Discipline Code Data) (guard : Store.Safeguard Data Safe)
    (leaves : registry.LeavesFrames)
    (makes : ∀ name primitive, registry.primitives.find? name = some primitive →
      primitive.Keeps Data)
    (code : task.Consists Code) (safe : Safe f s.store) :
    Safe f s'.store ∧ ∀ value, outcome = .ok value → Data value := by
  induction h with
  | bound found => exact ⟨safe, fun _ same => Except.ok.inj same ▸ guard.shows safe found⟩
  | unbound | unresolved | wrongCount | malformedTarget | malformedParameters =>
      exact ⟨safe, fun _ same => nomatch same⟩
  | itself => exact ⟨safe, fun _ same => Except.ok.inj same ▸ fits.quoted code⟩
  | quote =>
      have inside := fits.items code
      exact ⟨safe, fun _ same => Except.ok.inj same ▸ fits.quoted (inside _ (by simp))⟩
  | testFails _ _ ih | definitionFails _ _ _ ih =>
      exact ⟨(ih (fits.items code _ (by simp)) safe).1, fun _ same => nomatch same⟩
  | choose _ _ _ first second =>
      obtain ⟨test, branch⟩ := fits.choice code _
      exact second branch (first test safe).1
  | defineValue _ shape _ ih =>
      obtain ⟨safe, data⟩ := ih (fits.items code _ (by simp)) safe
      refine ⟨guard.set safe _ (data _ rfl), fun _ same => ?_⟩
      rw [← Except.ok.inj same, ← SpecialForms.eq_symbol_of_target shape]
      exact fits.quoted (fits.items code _ (by simp))
  | @defineFunction _ _ _ body =>
      have inside : Code body := fits.items code body (by simp)
      exact ⟨guard.set safe _ (fits.closure.mpr inside),
        fun _ same => Except.ok.inj same ▸ fits.closure.mpr inside⟩
  | @lambda _ _ _ body =>
      have inside : Code body := fits.items code body (by simp)
      exact ⟨safe, fun _ same => Except.ok.inj same ▸ fits.closure.mpr inside⟩
  | operandFails _ _ _ ih | callCount _ _ _ ih | callTooDeep _ _ _ _ ih =>
      exact ⟨(ih (fits.operands code) safe).1, fun _ same => nomatch same⟩
  | @primitive _ _ _ _ _ _ result _ _ _ resolved _ ran _ ih =>
      have found := Registry.find?_primitive_of_resolve resolved
      obtain ⟨safe, data⟩ := ih (fits.operands code) safe
      rw [leaves.store_eq resolved ran]
      refine ⟨safe, fun value same => ?_⟩
      cases result with
      | error error => cases same
      | ok made =>
          obtain rfl := Except.ok.inj same
          exact (makes _ _ found).of_runChecked (fits.list.mp (data _ rfl)) ran
  | call resolved _ _ _ body evaluated ran =>
      -- The head is resolved before the operands are evaluated, so in the first store.
      have inside := fits.code_of_resolve (fits.head code) (guard.shows safe) resolved
      obtain ⟨safe, data⟩ := evaluated (fits.operands code) safe
      obtain ⟨left, result⟩ := ran inside (fits.safe_enter guard safe (data _ rfl) _ _)
      exact ⟨guard.leave safe (body.writesOnly leaves) left, result⟩
  | noOperands => exact ⟨safe, fun _ same => Except.ok.inj same ▸ fits.list.mpr (by simp)⟩
  | firstFails _ ih =>
      exact ⟨(ih (code _ List.mem_cons_self) safe).1, fun _ same => nomatch same⟩
  | laterFails _ _ first second =>
      obtain ⟨one, later⟩ := List.forall_mem_cons.mp code
      exact second later (first one safe).1
  | operands _ _ first second =>
      obtain ⟨one, later⟩ := List.forall_mem_cons.mp code
      obtain ⟨safe, data⟩ := first one safe
      obtain ⟨safe, rest⟩ := second later safe
      refine ⟨safe, fun _ same => ?_⟩
      rw [← Except.ok.inj same]
      exact fits.list.mpr (List.forall_mem_cons.mpr ⟨data _ rfl, fits.list.mp (rest _ rfl)⟩)

/-- From code, in a store of data, evaluation leaves a store of data and gives data. -/
theorem Evaluates.keeps {task : Task} {outcome : Except Error Value}
    (h : Evaluates .standard f task s outcome s') (fits : Value.Discipline Code Data)
    (code : task.Consists Code) (holds : s.store.Holds Data) :
    s'.store.Holds Data ∧ ∀ value, outcome = .ok value → Data value := by
  refine h.keeps_safe fits (Store.safeguard_holds Data) Registry.standard_leavesFrames ?_ code
    holds
  intro name primitive found
  exact Primitive.keeps_standard fits.nil fits.bool fits.int fits.list found

/-- An evaluation that begins with code in a store of data. -/
structure Config.Disciplined (Code Data : Value → Prop) (c : Config) : Prop where
  code : Code c.expr
  holds : c.state.store.Holds Data

/-- One evaluation inside another. -/
theorem Demands.disciplined {c next : Config} (h : Demands .standard c next)
    (fits : Value.Discipline Code Data) (disciplined : c.Disciplined Code Data) :
    next.Disciplined Code Data := by
  obtain ⟨code, holds⟩ := disciplined
  cases h with
  | test => exact ⟨fits.items code _ (by simp), holds⟩
  | branch _ tested =>
      obtain ⟨test, branch⟩ := fits.choice code _
      exact ⟨branch, (tested.keeps fits test holds).1⟩
  | definition => exact ⟨fits.items code _ (by simp), holds⟩
  | operand _ _ evaluated =>
      exact ⟨fits.items code _ (by simp),
        (evaluated.keeps fits (fits.operands_before code) holds).1⟩
  | body resolved evaluated =>
      obtain ⟨kept, data⟩ := evaluated.keeps fits (fits.operands code) holds
      exact ⟨fits.code_of_resolve (fits.head code) holds.get? resolved,
        fits.holds_enter kept (data _ rfl) _ _ _⟩

/-- All evaluations inside one. -/
theorem Config.Disciplined.of_demands {c later : Config} (disciplined : c.Disciplined Code Data)
    (fits : Value.Discipline Code Data)
    (steps : Relation.ReflTransGen (Demands .standard) c later) :
    later.Disciplined Code Data := by
  induction steps with
  | refl => exact disciplined
  | tail _ h ih => exact h.disciplined fits ih

/-- No record of the log is of a call without a name. -/
def State.NamesCalls (s : State) : Prop :=
  ∀ arguments depth, Record.call none arguments depth ∉ s.log

theorem State.NamesCalls.record (named : s.NamesCalls) {event : Record}
    (other : ∀ arguments depth, event ≠ .call none arguments depth) :
    (s.record event).NamesCalls := by
  intro arguments depth member
  rcases Array.mem_push.mp member with old | new
  · exact named arguments depth old
  · exact other arguments depth new.symm

/-- A head that is no closure itself stands for a closure only under a name. -/
theorem Registry.exists_name_of_resolve {registry : Registry} {store : Store} {head body : Value}
    {name : Option String} {params : List String} (plain : head.isClosure = false)
    (resolved : registry.resolve store f head = .ok (.closure name params body)) :
    ∃ found, name = some found := by
  have resolution := registry.resolution store f head
  rw [resolved] at resolution
  cases resolution with
  | bound => exact ⟨_, rfl⟩
  | closure => cases plain

/-- Where code holds no closures, every call has a name. -/
theorem Evaluates.namesCalls {task : Task} {outcome : Except Error Value}
    (h : Evaluates .standard f task s outcome s') (fits : Value.Discipline Code Data)
    (plain : ∀ {expr}, Code expr → expr.isClosure = false) (code : task.Consists Code)
    (holds : s.store.Holds Data) (named : s.NamesCalls) : s'.NamesCalls := by
  induction h with
  | bound | unbound | itself | unresolved | wrongCount | quote | malformedTarget
  | malformedParameters | lambda | noOperands => exact named
  | testFails _ _ ih | definitionFails _ _ _ ih =>
      exact ih (fits.items code _ (by simp)) holds named
  | choose _ tested _ first second =>
      obtain ⟨test, branch⟩ := fits.choice code _
      exact second branch (tested.keeps fits test holds).1 (first test holds named)
  | defineValue _ _ _ ih =>
      exact (ih (fits.items code _ (by simp)) holds named).record (by simp)
  | defineFunction => exact named.record (by simp)
  | operandFails _ _ _ ih | callCount _ _ _ ih => exact ih (fits.operands code) holds named
  | primitive resolved _ ran _ ih =>
      rw [Registry.eq_of_ran_standard resolved ran]
      exact ih (fits.operands code) holds named
  | callTooDeep _ _ _ _ ih => exact (ih (fits.operands code) holds named).record (by simp)
  | call resolved before _ _ _ evaluated ran =>
      have head := fits.head code
      obtain ⟨kept, data⟩ := before.keeps fits (fits.operands code) holds
      obtain ⟨found, rfl⟩ := Registry.exists_name_of_resolve (plain head) resolved
      refine ran (fits.code_of_resolve head holds.get? resolved)
        (fits.holds_enter kept (data _ rfl) _ _ _) ?_
      exact (evaluated (fits.operands code) holds named).record (by simp)
  | firstFails _ ih => exact ih (code _ List.mem_cons_self) holds named
  | laterFails head _ first second | operands head _ first second =>
      obtain ⟨one, later⟩ := List.forall_mem_cons.mp code
      exact second later (head.keeps fits one holds).1 (first one holds named)

/-- One evaluation inside another. -/
theorem Demands.namesCalls {c next : Config} (h : Demands .standard c next)
    (fits : Value.Discipline Code Data) (plain : ∀ {expr}, Code expr → expr.isClosure = false)
    (disciplined : c.Disciplined Code Data) (named : c.state.NamesCalls) :
    next.state.NamesCalls := by
  obtain ⟨code, holds⟩ := disciplined
  cases h with
  | test | definition => exact named
  | branch _ tested =>
      exact tested.namesCalls fits plain (fits.choice code false).1 holds named
  | operand _ _ evaluated =>
      exact evaluated.namesCalls fits plain (fits.operands_before code) holds named
  | body resolved evaluated =>
      obtain ⟨found, rfl⟩ := Registry.exists_name_of_resolve (plain (fits.head code)) resolved
      exact (evaluated.namesCalls fits plain (fits.operands code) holds named).record (by simp)

/-- All evaluations inside one. -/
theorem State.NamesCalls.of_demands {c later : Config} (named : c.state.NamesCalls)
    (fits : Value.Discipline Code Data) (plain : ∀ {expr}, Code expr → expr.isClosure = false)
    (disciplined : c.Disciplined Code Data)
    (steps : Relation.ReflTransGen (Demands .standard) c later) : later.state.NamesCalls := by
  induction steps with
  | refl => exact named
  | tail before h ih => exact h.namesCalls fits plain (disciplined.of_demands fits before) ih

end Evaluations

end DynamicLisp
