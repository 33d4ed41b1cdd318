import DynamicLisp.Proofs.Evaluation.Ceiling
import DynamicLisp.Proofs.Evaluation.Unread
import Mathlib.Data.Fintype.EquivFin

/-!
# How depth matters

The depth of a frame is looked at in one place only, where a call asks whether there is
room for another frame. So an evaluation goes the same way at every depth from which its
calls find room, and from any greater depth it ends at the first call that finds none: no
form and no primitive takes an error back.

How much room an evaluation needs is how far its deepest frame lies below the frame that
it started in. The store keeps every frame, so this can be read off the stores before and
after.
-/

namespace DynamicLisp

open Flat

section Climb

/-- How far the greatest of some depths lies beyond `base`, or 0 if there are none. -/
def climbBeyond (base : Nat) (depths : List Nat) : Nat :=
  (depths.map (· - base)).foldr max 0

theorem climbBeyond_append (base : Nat) (first second : List Nat) :
    climbBeyond base (first ++ second) =
      max (climbBeyond base first) (climbBeyond base second) := by
  induction first with
  | nil => simp [climbBeyond]
  | cons depth first ih =>
      simp only [climbBeyond, List.cons_append, List.map_cons, List.foldr_cons] at ih ⊢
      rw [ih, Nat.max_assoc]

/-- What lies beyond a frame one deeper lies one further beyond `base`. -/
theorem climbBeyond_cons_succ (base : Nat) (depths : List Nat) :
    climbBeyond base ((base + 1) :: depths) = climbBeyond (base + 1) depths + 1 := by
  induction depths with
  | nil => simp [climbBeyond]
  | cons depth depths ih =>
      simp only [climbBeyond, List.map_cons, List.foldr_cons] at ih ⊢
      omega

namespace Store

variable {before middle after : Store} {f : FrameId}

/-- The depths of the frames that `after` has beyond those of `before`, the oldest
first. -/
def openedDepths (before after : Store) : List Nat :=
  (List.range' before.size (after.size - before.size)).map after.depth

/-- How much deeper than frame `f` the deepest frame is that was opened between the two
stores, or 0 if none was opened. -/
def climb (before after : Store) (f : FrameId) : Nat :=
  climbBeyond (before.depth f) (before.openedDepths after)

theorem climb_of_size_eq (size : after.size = before.size) (f : FrameId) :
    before.climb after f = 0 := by
  simp [climb, openedDepths, size, climbBeyond]

theorem openedDepths_append (first : before.size ≤ middle.size)
    (second : WritesOnly f middle after) :
    before.openedDepths after = before.openedDepths middle ++ middle.openedDepths after := by
  have kept : (List.range' before.size (middle.size - before.size)).map middle.depth =
      (List.range' before.size (middle.size - before.size)).map after.depth := by
    apply List.map_congr_left
    intro g member
    have upper := (List.mem_range'_1.mp member).2
    rw [Nat.add_sub_cancel' first] at upper
    exact (second.depth_eq upper).symm
  have joined : List.range' before.size (middle.size - before.size) ++
      List.range' middle.size (after.size - middle.size) =
        List.range' before.size (after.size - before.size) := by
    have grown := second.size_le
    have start : middle.size = before.size + (middle.size - before.size) := by omega
    have total : after.size - before.size =
        (middle.size - before.size) + (after.size - middle.size) := by omega
    rw [total, ← List.range'_append_1, ← start]
  rw [openedDepths, openedDepths, openedDepths, kept, ← List.map_append, joined]

theorem climb_trans (first : WritesOnly f before middle) (second : WritesOnly f middle after)
    (present : f < before.size) :
    before.climb after f = max (before.climb middle f) (middle.climb after f) := by
  rw [climb, openedDepths_append first.size_le second, climbBeyond_append, climb, climb,
    first.depth_eq present]

/-- A call climbs one frame, and then as far as its body climbs from there. -/
theorem climb_push {bindings : Table Value}
    (inner : WritesOnly before.size
      (before.push ⟨bindings, some f, before.depth f + 1⟩) after) :
    before.climb after f =
      (before.push ⟨bindings, some f, before.depth f + 1⟩).climb after before.size + 1 := by
  have opened : before.openedDepths (before.push ⟨bindings, some f, before.depth f + 1⟩) =
      [before.depth f + 1] := by
    simp [openedDepths]
  rw [climb, openedDepths_append (by simp) inner, opened, List.singleton_append,
    climbBeyond_cons_succ, climb, depth_push_new]

end Store

end Climb

/-- What a run becomes when it starts at another depth. It is the same run if there is
room for as many frames as it needs, and otherwise it ends with a stack limit. -/
structure Shifts (depth climb : Nat) (run run' : Except Error Value × Scope) : Prop where
  below : depth + climb < maxDepth → run' = run
  above : maxDepth ≤ depth + climb → ∃ scope, run' = (.error (.stackLimit maxDepth), scope)

namespace Shifts

variable {depth first second : Nat} {run run₁ run₁' run' : Except Error Value × Scope}

/-- A run that opens no frame is the same at every depth. -/
theorem of_size_eq {before after : Store} {f : FrameId} (size : after.size = before.size)
    (bounded : depth < maxDepth) (same : run' = run) :
    Shifts depth (before.climb after f) run run' := by
  rw [Store.climb_of_size_eq size]
  exact ⟨fun _ => same, fun deep => absurd deep (Nat.not_le.mpr bounded)⟩

/-- A run that consists of another run and of steps which depend on nothing but its
result. -/
theorem through (shifts : Shifts depth first run₁ run₁') (keeps : run₁' = run₁ → run' = run)
    (stops : ∀ scope, run₁' = (.error (.stackLimit maxDepth), scope) →
      ∃ scope', run' = (.error (.stackLimit maxDepth), scope')) :
    Shifts depth first run run' := by
  refine ⟨fun room => keeps (shifts.below room), ?_⟩
  intro deep
  obtain ⟨scope, stopped⟩ := shifts.above deep
  exact stops scope stopped

/-- A run that goes on after another one. Whichever of the two first lacks room ends it. -/
theorem andThen (shifts : Shifts depth first run₁ run₁')
    (goesOn : run₁' = run₁ → Shifts depth second run run')
    (stops : ∀ scope, run₁' = (.error (.stackLimit maxDepth), scope) →
      ∃ scope', run' = (.error (.stackLimit maxDepth), scope')) :
    Shifts depth (max first second) run run' := by
  rcases Nat.lt_or_ge (depth + first) maxDepth with room | deep
  · obtain ⟨below, above⟩ := goesOn (shifts.below room)
    exact ⟨fun room => below (by omega), fun deep => above (by omega)⟩
  · obtain ⟨scope, stopped⟩ := shifts.above deep
    exact ⟨fun room => by omega, fun _ => stops scope stopped⟩

/-- A call needs room for its own frame, and from there for the frames of its body. -/
theorem call {climb : Nat} {scope callee : Scope} {name : Option String} {params : List String}
    {body : Value} {args : List Value} {outcome : Except Error Value}
    (count : params.length = args.length) (bounded : depth < maxDepth)
    (entered : depth + 1 < maxDepth → Shifts (depth + 1) climb (outcome, callee)
      (Flat.eval (depth + 1) (scope.enter params args) body)) :
    Shifts depth (climb + 1) (outcome, scope.leave callee)
      (Flat.call depth scope (.closure name params body) args) := by
  simp only [Flat.call, count, if_true]
  by_cases room : depth + 1 < maxDepth
  · obtain ⟨below, above⟩ := entered room
    rw [if_pos room]
    constructor
    · intro fits
      rw [below (by omega)]
    · intro deep
      obtain ⟨inside, stopped⟩ := above (by omega)
      rw [stopped]
      exact ⟨_, rfl⟩
  · have full : depth + 1 = maxDepth := by omega
    rw [if_neg room, full]
    exact ⟨fun fits => by omega, fun _ => ⟨scope, rfl⟩⟩

end Shifts

namespace Flat

variable {depth : Nat} {scope scope' : Scope} {head : Value} {operands : List Value}
variable {error : Error}

theorem eval_testFails {test yes no : Value} (found : Keyword.ofHead? head = some .choose)
    (tested : eval depth scope test = (.error error, scope')) :
    eval depth scope (.list [head, test, yes, no]) = (.error error, scope') := by
  simp only [eval, found, tested]

theorem eval_definitionFails {signature expr : Value} {name : String}
    (found : Keyword.ofHead? head = some .define)
    (shape : SpecialForms.target signature = .ok (.value name))
    (evaluated : eval depth scope expr = (.error error, scope')) :
    eval depth scope (.list [head, signature, expr]) = (.error error, scope') := by
  simp only [eval, found, shape, evaluated]

theorem flat_firstFails {expr : Value} {exprs : List Value}
    (first : eval depth scope expr = (.error error, scope')) :
    (Task.operands (expr :: exprs)).flat depth scope = (.error error, scope') := by
  simp only [Task.flat, evalAll, first]
  rfl

theorem flat_cons {expr value : Value} {exprs : List Value} {scope₁ : Scope}
    (first : eval depth scope expr = (.ok value, scope₁)) (result : Except Error (List Value))
    (later : (Task.operands exprs).flat depth scope₁ = (result.map .list, scope')) :
    (Task.operands (expr :: exprs)).flat depth scope =
      ((result.map (value :: ·)).map .list, scope') := by
  have rest := evalAll_of_flat result later
  cases result <;> simp only [Task.flat, evalAll, first, rest] <;> rfl

end Flat

namespace Evaluates

variable {f : FrameId} {task : Task} {s s' : State} {outcome : Except Error Value}

/-- A run that does not meet the limit, seen from a frame at another depth. -/
theorem shifts (h : Evaluates .standard f task s outcome s') (present : f < s.store.size)
    (within : ∀ limit, outcome ≠ .error (.stackLimit limit)) {depth : Nat}
    (bounded : depth < maxDepth) :
    Shifts depth (s.store.climb s'.store f) (outcome, s'.scope f)
      (task.flat depth (s.scope f)) := by
  induction h generalizing depth with
  | bound found | unbound found =>
      refine .of_size_eq rfl bounded ?_
      simp only [Task.flat, Flat.eval, Scope.lookup, State.find?_scope, found]
  | itself constant => exact .of_size_eq rfl bounded (Flat.eval_itself constant)
  | unresolved resolved =>
      obtain ⟨noWord, missing⟩ := Registry.callee_of_unresolved resolved
      exact .of_size_eq rfl bounded (Flat.eval_unresolved noWord missing)
  | wrongCount resolved count =>
      obtain ⟨word, found, rfl, rfl⟩ := Registry.exists_keyword_of_resolve resolved
      rw [word.form_arity] at count ⊢
      refine .of_size_eq rfl bounded (Flat.eval_wrongCount found ?_)
      simpa [Arity.admits] using count
  | quote resolved =>
      have word := Registry.ofHead?_of_resolve .quote resolved
      refine .of_size_eq rfl bounded ?_
      simp only [Task.flat, Flat.eval, word]
  | malformedTarget resolved shape =>
      have word := Registry.ofHead?_of_resolve .define resolved
      refine .of_size_eq rfl bounded ?_
      simp only [Task.flat, Flat.eval, word, shape]
  | malformedParameters resolved shape =>
      have word := Registry.ofHead?_of_resolve .lambda resolved
      refine .of_size_eq rfl bounded ?_
      simp only [Task.flat, Flat.eval, word, shape]
  | lambda resolved shape =>
      have word := Registry.ofHead?_of_resolve .lambda resolved
      refine .of_size_eq rfl bounded ?_
      simp only [Task.flat, Flat.eval, word, shape]
      rfl
  | defineFunction resolved shape =>
      have word := Registry.ofHead?_of_resolve .define resolved
      refine .of_size_eq (by simp) bounded ?_
      rw [State.scope_defineFunction present]
      simp only [Task.flat, Flat.eval, word, shape]
      rfl
  | testFails resolved _ tested =>
      have word := Registry.ofHead?_of_resolve .choose resolved
      refine (tested present within bounded).through ?_ ?_
      · exact fun same => Flat.eval_testFails word same
      · exact fun scope stopped => ⟨scope, Flat.eval_testFails word stopped⟩
  | choose resolved before after tested chosen =>
      have word := Registry.ofHead?_of_resolve .choose resolved
      rw [Store.climb_trans before.writesOwn after.writesOwn present]
      refine (tested present (by simp) bounded).andThen ?_ ?_
      · intro same
        rw [Task.flat, Flat.eval_choose word same]
        exact chosen (before.writesOwn.lt_size present) within bounded
      · exact fun scope stopped => ⟨scope, Flat.eval_testFails word stopped⟩
  | definitionFails resolved shape _ evaluated =>
      have word := Registry.ofHead?_of_resolve .define resolved
      refine (evaluated present within bounded).through ?_ ?_
      · exact fun same => Flat.eval_definitionFails word shape same
      · exact fun scope stopped => ⟨scope, Flat.eval_definitionFails word shape stopped⟩
  | defineValue resolved shape before evaluated =>
      have word := Registry.ofHead?_of_resolve .define resolved
      have caller := before.writesOwn.lt_size present
      rw [State.store_define, Store.climb_trans before.writesOwn (.set _ _ _ _) present]
      refine (evaluated present (by simp) bounded).andThen ?_ ?_
      · intro same
        refine .of_size_eq (by simp) bounded ?_
        simp only [Task.flat] at same
        simp only [Task.flat, Flat.eval, word, shape, same]
        rw [State.scope_define caller]
      · exact fun scope stopped => ⟨scope, Flat.eval_definitionFails word shape stopped⟩
  | operandFails resolved eager _ evaluated =>
      obtain ⟨noWord, callee, found, _⟩ := Registry.callee_of_resolve resolved eager
      refine (evaluated present within bounded).through ?_ ?_
      · exact fun same =>
          Flat.eval_operandFails noWord found (Flat.evalAll_of_flat (.error _) same)
      · exact fun scope stopped => ⟨scope,
          Flat.eval_operandFails noWord found (Flat.evalAll_of_flat (.error _) stopped)⟩
  | primitive resolved _ ran _ evaluated =>
      obtain rfl := Registry.eq_of_ran_standard resolved ran
      obtain ⟨noWord, callee, found, _⟩ := Registry.callee_of_resolve resolved rfl
      refine (evaluated present (by simp) bounded).through ?_ ?_
      · exact fun same => Flat.eval_primitive resolved same ran
      · exact fun scope stopped => ⟨scope,
          Flat.eval_operandFails noWord found (Flat.evalAll_of_flat (.error _) stopped)⟩
  | callCount resolved _ count evaluated =>
      obtain ⟨noWord, callee, found, _⟩ := Registry.callee_of_resolve resolved rfl
      refine (evaluated present (by simp) bounded).through ?_ ?_
      · intro same
        rw [Task.flat, Flat.eval_closure resolved same]
        simp only [Flat.call, count, if_false]
      · exact fun scope stopped => ⟨scope,
          Flat.eval_operandFails noWord found (Flat.evalAll_of_flat (.error _) stopped)⟩
  | callTooDeep => exact absurd rfl (within _)
  | call resolved before count shallow ran evaluated entered =>
      obtain ⟨noWord, callee, found, _⟩ := Registry.callee_of_resolve resolved rfl
      have caller := before.writesOwn.lt_size present
      rw [Store.climb_trans before.writesOwn (ran.writesOwn.of_inner _) present]
      refine (evaluated present (by simp) bounded).andThen ?_ ?_
      · intro same
        rw [Task.flat, Flat.eval_closure resolved same, Store.climb_push ran.writesOwn,
          State.scope_leave ran caller]
        refine .call count bounded fun room => ?_
        have body := entered (State.lt_size_enter _ _ _ _ _) within room
        rw [State.scope_enter caller] at body
        exact body
      · exact fun scope stopped => ⟨scope,
          Flat.eval_operandFails noWord found (Flat.evalAll_of_flat (.error _) stopped)⟩
  | noOperands =>
      refine .of_size_eq rfl bounded ?_
      simp only [Task.flat, Flat.evalAll]
      rfl
  | firstFails _ first =>
      refine (first present within bounded).through ?_ ?_
      · exact fun same => Flat.flat_firstFails same
      · exact fun scope stopped => ⟨scope, Flat.flat_firstFails stopped⟩
  | laterFails before after first later =>
      rw [Store.climb_trans before.writesOwn after.writesOwn present]
      refine (first present (by simp) bounded).andThen ?_ ?_
      · intro same
        refine (later (before.writesOwn.lt_size present) within bounded).through ?_ ?_
        · exact fun rest => Flat.flat_cons same (.error _) rest
        · exact fun scope stopped => ⟨scope, Flat.flat_cons same (.error _) stopped⟩
      · exact fun scope stopped => ⟨scope, Flat.flat_firstFails stopped⟩
  | operands before after first later =>
      rw [Store.climb_trans before.writesOwn after.writesOwn present]
      refine (first present (by simp) bounded).andThen ?_ ?_
      · intro same
        refine (later (before.writesOwn.lt_size present) (by simp) bounded).through ?_ ?_
        · exact fun rest => Flat.flat_cons same (.ok _) rest
        · exact fun scope stopped => ⟨scope, Flat.flat_cons same (.error _) stopped⟩
      · exact fun scope stopped => ⟨scope, Flat.flat_firstFails stopped⟩

end Evaluates

section Freshness

/-- All names that a value looks up if it is evaluated, or if its closures are called. -/
def Value.mentions (value : Value) : List String :=
  value.reads ++ value.bodies.flatMap Value.reads

theorem Value.overlooks_of_not_mem_mentions {value : Value} {hidden : String}
    (absent : hidden ∉ value.mentions) : value.Overlooks hidden := by
  simp only [mentions, List.mem_append, List.mem_flatMap, not_or, not_exists, not_and] at absent
  exact ⟨absent.1, absent.2⟩

/-- There is a name that is neither looked up by an expression nor by a closure in it or
in some table. -/
theorem exists_overlooked (expr : Value) (table : Table Value) :
    ∃ hidden, expr.Overlooks hidden ∧
      ∀ name value, table.find? name = some value → value.ClosuresOverlook hidden := by
  obtain ⟨hidden, absent⟩ := Infinite.exists_notMem_finset
    (expr.mentions ++ table.toList.flatMap fun entry => entry.2.mentions).toFinset
  simp only [List.mem_toFinset, List.mem_append, List.mem_flatMap, not_or, not_exists,
    not_and] at absent
  refine ⟨hidden, Value.overlooks_of_not_mem_mentions absent.1, ?_⟩
  intro name value found
  exact (Value.overlooks_of_not_mem_mentions
    (absent.2 _ ((table.find?_eq_some_iff).mp found))).closures

end Freshness

section Thresholds

variable {r : ClosureId → ClosureId → Prop} {s t : State} {f g : FrameId}

/-- Two frames at the same depth that show alike values cannot be told apart by an
evaluation: it goes on one side as the flat interpreter does on the other. -/
theorem Registry.eval_alike (same : ∀ id, r id id) (present : g < t.store.size)
    (fresh : ∀ n, r (t.supply + n) (s.supply + n))
    (seen : ∀ name, Option.Rel (Value.Alike r) (t.store.get? g name) (s.store.get? f name))
    (expr : Value) :
    ∃ outcome t', (standard.eval g expr).outcome t = (outcome, t') ∧
      ResultsAlike r (Value.Alike r) outcome (Flat.eval (t.store.depth g) (s.scope f) expr).1 ∧
      ∀ name, Option.Rel (Value.Alike r) (t'.store.get? g name)
        ((Flat.eval (t.store.depth g) (s.scope f) expr).2.bindings.find? name) := by
  -- Overlooking a name that occurs nowhere is no restriction.
  obtain ⟨hidden, overlooks, others⟩ := exists_overlooked expr (t.scope g).bindings
  have agree : State.AgreeExcept r hidden t g s f := by
    refine ⟨fresh, fun name _ => seen name, ?_⟩
    intro name _ value found
    exact others name value (by rw [State.find?_scope, found])
  obtain ⟨outcome, t', ran, h⟩ := standard_outcome present expr
  have runs := h.parallel same present (State.agreeExcept_iff_scope.mp agree) overlooks
  rw [Task.flat] at runs
  obtain ⟨outcomes, scopes⟩ := runs
  refine ⟨outcome, t', ran, outcomes.mono fun _ _ related => related.alike, ?_⟩
  intro name
  rw [← State.find?_scope]
  by_cases special : name = hidden
  · subst special
    obtain ⟨kept, kept'⟩ | rebound := scopes.itself
    · rw [kept, kept', State.find?_scope, State.find?_scope]
      exact seen name
    · exact (Value.Corresponds.rel_iff.mp rebound).1
  · exact (Value.Corresponds.rel_iff.mp (scopes.agree.bindings name special)).1

theorem ResultsAlike.eq_stackLimit {R : Value → Value → Prop} {outcome : Except Error Value}
    {limit : Nat} (results : ResultsAlike r R outcome (.error (.stackLimit limit))) :
    outcome = .error (.stackLimit limit) := by
  cases results with
  | error alike =>
      cases alike with
      | same => rfl

/-- A run that does not meet the stack limit needs room for some number of frames below
the frame it starts in. From any other frame that shows the same bindings, if there is as
much room, the expression has the same outcome and leaves the same bindings to be seen, up
to the identities of closures. If there is less room, the outcome is a stack limit at
depth 1000. For `r` one may take the relation that always holds, or one as fine as the two
supplies allow. -/
theorem stack_limit_threshold (same : ∀ id, r id id) (reachable : t.store.Reachable)
    (present : f < s.store.size) (present' : g < t.store.size)
    (fresh : ∀ n, r (t.supply + n) (s.supply + n))
    (seen : ∀ name, Option.Rel (Value.Alike r) (t.store.get? g name) (s.store.get? f name))
    (expr : Value) {outcome : Except Error Value} {s' : State}
    (ran : (Registry.standard.eval f expr).outcome s = (outcome, s'))
    (within : ∀ limit, outcome ≠ .error (.stackLimit limit)) :
    (t.store.depth g + s.store.climb s'.store f ≤ 999 →
      ∃ outcome' t', (Registry.standard.eval g expr).outcome t = (outcome', t') ∧
        ResultsAlike r (Value.Alike r) outcome' outcome ∧
        ∀ name, Option.Rel (Value.Alike r) (t'.store.get? g name) (s'.store.get? f name)) ∧
    (1000 ≤ t.store.depth g + s.store.climb s'.store f →
      ∃ t', (Registry.standard.eval g expr).outcome t = (.error (.stackLimit 1000), t')) := by
  obtain ⟨_, _, ran', h⟩ := Registry.standard_outcome present expr
  rw [ran] at ran'
  obtain ⟨rfl, rfl⟩ := Prod.mk.inj ran'
  have shifts := h.shifts present within (reachable.wellFormed.depth_lt present')
  obtain ⟨outcome', t', ran', outcomes, bindings⟩ :=
    Registry.eval_alike same present' fresh seen expr
  constructor
  · intro room
    have flat : Flat.eval (t.store.depth g) (s.scope f) expr = (outcome, s'.scope f) :=
      shifts.below (Nat.lt_succ_of_le room)
    simp only [flat, State.find?_scope] at outcomes bindings
    exact ⟨outcome', t', ran', outcomes, bindings⟩
  · intro deep
    obtain ⟨scope, stopped⟩ := shifts.above deep
    have flat : Flat.eval (t.store.depth g) (s.scope f) expr = _ := stopped
    rw [flat] at outcomes
    exact ⟨t', by rw [ran', outcomes.eq_stackLimit]; rfl⟩

end Thresholds

section Nesting

variable {before after : Store} {f : FrameId} {count i : Nat}

namespace Store.Nested

theorem depth_innermost (nested : Nested f count before after) (present : f < before.size)
    (opened : i ≤ count) :
    before.innermost f i < after.size ∧
      after.depth (before.innermost f i) = before.depth f + i := by
  cases i with
  | zero =>
      have grown : before.size ≤ after.size := by
        rw [nested.size_eq]
        exact Nat.le_add_right _ _
      refine ⟨Nat.lt_of_lt_of_le present grown, ?_⟩
      rw [innermost, depth, nested.old f present]
      rfl
  | succ i =>
      have found := nested.new i opened
      exact ⟨lt_size_of_frame? found, depth_eq_of_frame? found⟩

/-- Empty frames hide nothing: from each of them one sees what their common outer frame
shows. -/
theorem get?_innermost (nested : Nested f count before after) (present : f < before.size)
    (opened : i ≤ count) (name : String) :
    after.get? (before.innermost f i) name = before.get? f name := by
  induction i with
  | zero =>
      have same : after.visible f = before.visible f := by
        apply visible_congr
        intro g bound
        exact nested.old g (Nat.lt_of_le_of_lt bound present)
      rw [innermost, ← find?_visible, same, find?_visible]
  | succ i ih =>
      have earlier : before.innermost f i < before.size + i := by
        cases i with
        | zero => exact present
        | succ i => exact Nat.lt_succ_self _
      rw [innermost, get?_of_frame? (nested.new i opened)]
      simp [earlier, ih (Nat.le_of_succ_le opened)]

end Store.Nested

theorem State.get?_initial (name : String) : State.initial.store.get? 0 name = none := by
  rw [Store.get?_of_frame? rfl]
  rfl

/-- The innermost of so many empty frames under the first root shows no bindings. -/
theorem State.nest_initial {count : Nat} (room : count < maxDepth) :
    ∃ t g, (Eval.nest count 0).outcome .initial = (.ok (g, none), t) ∧ t.store.Reachable ∧
      g < t.store.size ∧ t.store.depth g = count ∧ ∀ name, t.store.get? g name = none := by
  have depth : State.initial.store.depth 0 = 0 := rfl
  have opened : min count (maxDepth - 1 - 0) = count := by omega
  have present : 0 < State.initial.store.size := by decide
  obtain ⟨t, ran, nested⟩ :=
    Eval.nest_outcome (show State.initial.store.depth 0 < maxDepth by decide) count
  rw [depth, opened] at ran nested
  rw [Nat.zero_add, if_pos room] at ran
  have reachable : t.store.Reachable := by
    have step := Store.Reachable.step (.nest count 0) .initial Store.reachable_initial present
    rwa [Operation.run, ran] at step
  obtain ⟨inside, deep⟩ := nested.depth_innermost present (Nat.le_refl count)
  rw [depth, Nat.zero_add] at deep
  refine ⟨t, _, ran, reachable, inside, deep, ?_⟩
  intro name
  rw [nested.get?_innermost present (Nat.le_refl count), State.get?_initial]

end Nesting

/-- A call of a closure without parameters. -/
def Value.constantCall : Value := .list [.closure 0 [] (.int 7)]

/-- The call needs room for one frame. At depth 998 it finds it, and at depth 999 it does
not. -/
theorem stack_limit_threshold_constantCall :
    (∃ s', (Registry.standard.eval 0 .constantCall).outcome .initial = (.ok (.int 7), s') ∧
      State.initial.store.climb s'.store 0 = 1) ∧
    (∃ t g t', (Eval.nest 998 0).outcome .initial = (.ok (g, none), t) ∧
      t.store.depth g = 998 ∧
      (Registry.standard.eval g .constantCall).outcome t = (.ok (.int 7), t')) ∧
    ∃ t g t', (Eval.nest 999 0).outcome .initial = (.ok (g, none), t) ∧
      t.store.depth g = 999 ∧
      (Registry.standard.eval g .constantCall).outcome t = (.error (.stackLimit 1000), t') := by
  have ran : (Registry.standard.eval 0 .constantCall).outcome .initial =
      (.ok (.int 7), State.initial.enter 0 none [] []) := rfl
  have climb : State.initial.store.climb (State.initial.enter 0 none [] []).store 0 = 1 := rfl
  have threshold {t : State} {g : FrameId} (reachable : t.store.Reachable)
      (present : g < t.store.size) (empty : ∀ name, t.store.get? g name = none) :=
    stack_limit_threshold (r := fun _ _ => True) (fun _ => trivial) reachable (by decide)
      present (fun _ => trivial)
      (fun name => by rw [empty, State.get?_initial]; exact .none) .constantCall ran (by simp)
  refine ⟨⟨_, ran, climb⟩, ?_, ?_⟩
  · obtain ⟨t, g, nested, reachable, present, depth, empty⟩ :=
      State.nest_initial (show 998 < maxDepth by decide)
    obtain ⟨outcome, t', ran', alike, -⟩ :=
      (threshold reachable present empty).1 (by rw [climb, depth])
    obtain rfl : outcome = .ok (.int 7) := by
      cases alike with
      | ok related =>
          cases related
          rfl
    exact ⟨t, g, t', nested, depth, ran'⟩
  · obtain ⟨t, g, nested, reachable, present, depth, empty⟩ :=
      State.nest_initial (show 999 < maxDepth by decide)
    obtain ⟨t', ran'⟩ := (threshold reachable present empty).2 (by rw [climb, depth])
    exact ⟨t, g, t', nested, depth, ran'⟩

end DynamicLisp
