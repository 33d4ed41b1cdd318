import DynamicLisp.Proofs.Evaluation.Reachable
import DynamicLisp.Proofs.StandardRegistry
import DynamicLisp.Proofs.Store.Chains

/-!
# The ceiling of frames

A frame that would be too deep is refused, with an error that names the depth it
would have had. Depths grow by one from a frame to the next, so this is always
`maxDepth` itself, whether the frame was asked for directly or by a call anywhere
inside an evaluation. The number of empty frames that can be opened inside one another
is exactly what the ceiling leaves.
-/

namespace DynamicLisp

namespace SpecialForms

theorem structural_of_paramNames {form : String} {params : List Value} {error : Error}
    (failed : paramNames form params = .error error) : ∃ fault, error = .structural fault := by
  induction params with
  | nil => cases failed
  | cons param params ih =>
      cases param with
      | symbol name =>
          rw [paramNames] at failed
          cases rest : paramNames form params with
          | ok names => rw [rest] at failed; cases failed
          | error found =>
              rw [rest] at failed
              cases failed
              exact ih rest
      | _ =>
          cases failed
          exact ⟨_, rfl⟩

theorem structural_of_target {signature : Value} {error : Error}
    (failed : target signature = .error error) : ∃ fault, error = .structural fault := by
  unfold target at failed
  split at failed
  · cases failed
  · next name params =>
    cases named : paramNames "define" params with
    | ok names => rw [named] at failed; cases failed
    | error found =>
        rw [named] at failed
        cases failed
        exact structural_of_paramNames named
  all_goals
    cases failed
    exact ⟨_, rfl⟩

theorem structural_of_parameters {names : Value} {error : Error}
    (failed : parameters names = .error error) : ∃ fault, error = .structural fault := by
  unfold parameters at failed
  split at failed
  · exact structural_of_paramNames failed
  · cases failed
    exact ⟨_, rfl⟩

end SpecialForms

/-- A result reports a stack limit at no other depth than `maxDepth`. -/
def LimitIsMax {α : Type} (result : Except Error α) : Prop :=
  ∀ depth, result = .error (.stackLimit depth) → depth = maxDepth

section Results

variable {α : Type} {f : FrameId} {s s' : State}

theorem limitIsMax_ok (a : α) : LimitIsMax (.ok a : Except Error α) := by
  intro depth same
  cases same

theorem limitIsMax_of_ne {error : Error} (other : ∀ depth, error ≠ .stackLimit depth) :
    LimitIsMax (.error error : Except Error α) := by
  intro depth same
  exact absurd (Except.error.inj same) (other depth)

/-- In a well-formed store, a frame that is refused would have been at `maxDepth`. -/
theorem Store.WellFormed.limitIsMax {store : Store} (formed : store.WellFormed)
    (present : f < store.size) (deep : maxDepth ≤ store.depth f + 1) :
    LimitIsMax (.error (.stackLimit (store.depth f + 1)) : Except Error α) := by
  intro depth same
  cases same
  have shallow := formed.depth_lt present
  omega

theorem Registry.limitIsMax_of_resolve {registry : Registry} {store : Store} {head : Value}
    {error : Error} (resolved : registry.resolve store f head = .error error) :
    LimitIsMax (.error error : Except Error α) := by
  have resolution := registry.resolution store f head
  rw [resolved] at resolution
  cases resolution with
  | notCallable | unbound | other => exact limitIsMax_of_ne (by simp)

/-- Whatever is evaluated, a stack limit is reported at `maxDepth`. -/
theorem Evaluates.limitIsMax {task : Task} {outcome : Except Error Value}
    (h : Evaluates .standard f task s outcome s') (present : f < s.store.size)
    (formed : s.store.WellFormed) : LimitIsMax outcome := by
  induction h with
  | bound | itself | quote | defineValue | defineFunction | lambda | noOperands | operands =>
      exact limitIsMax_ok _
  | unbound | wrongCount | callCount => exact limitIsMax_of_ne (by simp)
  | unresolved resolved => exact Registry.limitIsMax_of_resolve resolved
  | malformedTarget _ shape =>
      obtain ⟨fault, rfl⟩ := SpecialForms.structural_of_target shape
      exact limitIsMax_of_ne (by simp)
  | malformedParameters _ shape =>
      obtain ⟨fault, rfl⟩ := SpecialForms.structural_of_parameters shape
      exact limitIsMax_of_ne (by simp)
  | testFails _ _ ih | definitionFails _ _ _ ih | operandFails _ _ _ ih | firstFails _ ih =>
      exact ih present formed
  | choose _ tested _ _ second =>
      have grows := tested.grows present
      exact second (grows.lt_size present) (grows.wellFormed formed)
  | laterFails head _ _ second =>
      have grows := head.grows present
      exact second (grows.lt_size present) (grows.wellFormed formed)
  | primitive resolved _ ran _ _ =>
      have refuses := Primitive.onlyRefuses_of_find? (Registry.find?_primitive_of_resolve resolved)
      exact fun depth same => absurd same (refuses.ne_stackLimit _ ran depth)
  | callTooDeep _ before _ deep _ =>
      have grows := before.grows present
      exact (grows.wellFormed formed).limitIsMax (grows.lt_size present) deep
  | call _ before _ shallow _ _ ran =>
      have grows := before.grows present
      apply ran (State.lt_size_enter _ _ _ _ _)
      exact (grows.wellFormed formed).push (Store.placed_under (grows.lt_size present) shallow _)

theorem LimitIsMax.map {β : Type} {result : Except Error α} (limit : LimitIsMax result)
    (function : α → β) : LimitIsMax (result.map function) := by
  intro depth same
  cases result with
  | ok a => cases same
  | error error =>
      cases same
      exact limit depth rfl

theorem Registry.limitIsMax_eval (formed : s.store.WellFormed) (present : f < s.store.size)
    (expr : Value) : LimitIsMax ((standard.eval f expr).outcome s).1 := by
  obtain ⟨outcome, s', ran, h⟩ := standard_outcome present expr
  rw [ran]
  exact h.limitIsMax present formed

theorem Registry.limitIsMax_call (formed : s.store.WellFormed) (present : f < s.store.size)
    (params : List String) (body : Value) (args : List Value) :
    LimitIsMax ((standard.call f params body args).outcome s).1 := by
  obtain ran | ⟨deep, ran⟩ | ⟨shallow, outcome, s', ran, h⟩ :=
    call_outcome standard_usesStandardForms standard_respectsFrames present params body args
  · rw [ran]
    exact limitIsMax_of_ne (by simp)
  · rw [ran]
    exact formed.limitIsMax present deep
  · rw [ran]
    exact h.limitIsMax (s.lt_size_enter f none params args)
      (formed.push (Store.placed_under present shallow _))

theorem Eval.limitIsMax_openFrame (formed : s.store.WellFormed) (params : List String)
    (args : List Value) {outer : Option FrameId}
    (present : ∀ f, outer = some f → f < s.store.size) :
    LimitIsMax ((openFrame params args outer).outcome s).1 := by
  by_cases count : params.length = args.length
  · by_cases shallow : s.store.depthUnder outer < maxDepth
    · simp only [outcome, openFrame, count, shallow, if_true]
      exact limitIsMax_ok _
    · simp only [outcome, openFrame, count, shallow, if_true, if_false]
      cases outer with
      | none => exact absurd (show 0 < maxDepth by decide) shallow
      | some f => exact formed.limitIsMax (present f rfl) (Nat.not_lt.mp shallow)
  · simp only [outcome, openFrame, count, if_false]
    exact limitIsMax_of_ne (by simp)

end Results

section Nesting

/-- The innermost frame when so many were opened inside one another under `f`. -/
def Store.innermost (store : Store) (f : FrameId) : Nat → FrameId
  | 0 => f
  | count + 1 => store.size + count

/-- The second store has so many frames more, all of them empty. The first of these is
under `f` and each other one under the one before. -/
structure Store.Nested (f : FrameId) (count : Nat) (before after : Store) : Prop where
  size_eq : after.size = before.size + count
  old : ∀ g, g < before.size → after.frame? g = before.frame? g
  new : ∀ i, i < count → after.frame? (before.size + i) =
    some ⟨.empty, some (before.innermost f i), before.depth f + i + 1⟩

variable {f : FrameId} {s : State}

theorem Store.innermost_push (store : Store) (f : FrameId) (frame : Frame) (count : Nat) :
    (store.push frame).innermost store.size count = store.innermost f (count + 1) := by
  cases count with
  | zero => rfl
  | succ count => rw [innermost, innermost, size_push, Nat.add_assoc, Nat.add_comm 1 count]

theorem Store.Nested.refl (f : FrameId) (store : Store) : Nested f 0 store store :=
  ⟨rfl, fun _ _ => rfl, fun _ impossible => absurd impossible (Nat.not_lt_zero _)⟩

/-- Frames opened inside one that was opened before. -/
theorem Store.Nested.of_push {store after : Store} {count : Nat}
    (nested : Nested store.size count (store.push ⟨.empty, some f, store.depth f + 1⟩) after) :
    Nested f (count + 1) store after := by
  obtain ⟨size, old, new⟩ := nested
  rw [size_push] at size old new
  refine ⟨by omega, ?_, ?_⟩
  · intro g present
    rw [old g (by omega), frame?_push_old present]
  · intro i bound
    cases i with
    | zero => rw [Nat.add_zero, old store.size (by omega), frame?_push_new, innermost]
    | succ i =>
        have place : store.size + (i + 1) = store.size + 1 + i := by omega
        have depth : store.depth f + 1 + i + 1 = store.depth f + (i + 1) + 1 := by omega
        rw [place, new i (by omega), innermost_push store f, depth_push_new, depth]

/-- As many frames are opened as were asked for, or else as many as the ceiling
leaves. -/
theorem Eval.nest_outcome (shallow : s.store.depth f < maxDepth) (count : Nat) :
    ∃ s', (nest count f).outcome s =
        (.ok (s.store.innermost f (min count (maxDepth - 1 - s.store.depth f)),
          if s.store.depth f + count < maxDepth then none else some (.stackLimit maxDepth)), s') ∧
      Store.Nested f (min count (maxDepth - 1 - s.store.depth f)) s.store s'.store := by
  induction count generalizing f s with
  | zero =>
      rw [Nat.zero_min, Nat.add_zero, if_pos shallow]
      exact ⟨s, rfl, .refl f s.store⟩
  | succ count ih =>
      by_cases room : s.store.depth f + 1 < maxDepth
      · have deeper : (s.push ⟨.empty, some f, s.store.depth f + 1⟩).store.depth s.store.size =
            s.store.depth f + 1 := Store.depth_push_new _ _
        have opened : min (count + 1) (maxDepth - 1 - s.store.depth f) =
            min count (maxDepth - 1 - (s.store.depth f + 1)) + 1 := by omega
        have limit : s.store.depth f + 1 + count = s.store.depth f + (count + 1) := by omega
        obtain ⟨s', ran, nested⟩ := ih (by rw [deeper]; exact room)
        rw [deeper] at ran nested
        refine ⟨s', ?_, opened ▸ nested.of_push⟩
        rw [outcome_nest_succ room, ran, opened, limit, State.push, Store.innermost_push s.store f]
      · have full : maxDepth = s.store.depth f + 1 := by omega
        have none : min (count + 1) (maxDepth - 1 - s.store.depth f) = 0 := by omega
        rw [none, if_neg (by omega)]
        refine ⟨s.record (.refused (s.store.depth f + 1)), ?_, .refl f s.store⟩
        simp [outcome, nest, openFrame, Store.depthUnder, full, Store.innermost]

end Nesting

namespace Operation

/-- What a step reports to the embedding program: success, or the error it ends with. -/
def report : Operation → State → Except Error Unit
  | root, s => (Eval.newRoot.outcome s).1.map fun _ => ()
  | openFrame params args outer, s =>
    ((Eval.openFrame params args outer).outcome s).1.map fun _ => ()
  | nest count f, s =>
    match ((Eval.nest count f).outcome s).1 with
    | .ok (_, none) => .ok ()
    | .ok (_, some error) => .error error
    | .error error => .error error
  | set f name value, s => ((Eval.assign f name value).outcome s).1
  | eval registry f expr, s => ((registry.eval f expr).outcome s).1.map fun _ => ()
  | call registry f params body args, s =>
    ((registry.call f params body args).outcome s).1.map fun _ => ()

/-- Where a step evaluates, it does so with the standard registry. -/
def Standard : Operation → Prop
  | eval registry _ _ => registry = .standard
  | call registry _ _ _ _ => registry = .standard
  | _ => True

theorem limitIsMax_report (operation : Operation) {s : State} (formed : s.store.WellFormed)
    (admissible : operation.Admissible s.store) (standard : operation.Standard) :
    LimitIsMax (operation.report s) := by
  cases operation with
  | root => exact limitIsMax_ok _
  | openFrame params args outer =>
      exact (Eval.limitIsMax_openFrame formed params args admissible).map _
  | nest count f =>
      obtain ⟨s', ran, _⟩ := Eval.nest_outcome (formed.depth_lt admissible) count
      by_cases room : s.store.depth f + count < maxDepth
      · simp only [report, ran, if_pos room]
        exact limitIsMax_ok _
      · simp only [report, ran, if_neg room]
        intro depth same
        cases same
        rfl
  | set f name value => exact limitIsMax_ok _
  | eval registry f expr =>
      obtain rfl : registry = .standard := standard
      exact (Registry.limitIsMax_eval formed admissible.2.2 expr).map _
  | call registry f params body args =>
      obtain rfl : registry = .standard := standard
      exact (Registry.limitIsMax_call formed admissible.2.2 params body args).map _

end Operation

/-- In a reachable store every frame is a root of depth 0 or one deeper than an earlier
frame, and no depth is above 999. So the way outward from a frame meets one frame more
than the depth says, all of them different, and ends in a root; lookups and listings go
along it. A stack limit is reported at depth 1000 only, and frames can be opened inside
one another down to depth 999 and no further. -/
theorem reachable_store_invariant {s : State} (reachable : s.store.Reachable) :
    (∀ f frame, s.store.frame? f = some frame → frame.depth ≤ 999 ∧
      (frame.outer = none ∧ frame.depth = 0 ∨
        ∃ outer, frame.outer = some outer ∧ outer < f ∧
          frame.depth = s.store.depth outer + 1)) ∧
    (∀ f, f < s.store.size → ∃ path, (∀ other, s.store.Chain f other ↔ other = path) ∧
      path.length = s.store.depth f + 1 ∧ path.Pairwise (· > ·) ∧
      (∃ root frame, path.getLast? = some root ∧ s.store.frame? root = some frame ∧
        frame.outer = none) ∧
      (∀ name, s.store.owner? f name = path.find? fun g => (s.store.own g).contains name) ∧
      s.store.visible f = path.foldr (fun g outer => outer.override (s.store.own g)) .empty) ∧
    (∀ operation : Operation, operation.Admissible s.store → operation.Standard →
      ∀ depth, operation.report s = .error (.stackLimit depth) → depth = 1000) ∧
    ∀ f count, f < s.store.size →
      ∃ s', (Eval.nest count f).outcome s =
          (.ok (s.store.innermost f (min count (999 - s.store.depth f)),
            if s.store.depth f + count ≤ 999 then none else some (.stackLimit 1000)), s') ∧
        Store.Nested f (min count (999 - s.store.depth f)) s.store s'.store := by
  have formed := reachable.wellFormed
  refine ⟨?_, ?_, ?_, ?_⟩
  · intro f frame found
    have placed := formed f frame found
    refine ⟨Nat.le_of_lt_succ placed.shallow, ?_⟩
    cases link : frame.outer with
    | none => exact .inl ⟨rfl, placed.root link⟩
    | some outer => exact .inr ⟨outer, rfl, placed.inner outer link⟩
  · intro f present
    obtain ⟨path, chain⟩ := formed.exists_chain present
    refine ⟨path, ?_, chain.length_eq formed, chain.decreasing formed, chain.ends,
      chain.owner?_eq formed, chain.visible_eq formed⟩
    intro other
    constructor
    · exact chain.unique
    · rintro rfl
      exact chain
  · intro operation admissible standard
    exact operation.limitIsMax_report formed admissible standard
  · intro f count present
    obtain ⟨s', ran, nested⟩ := Eval.nest_outcome (formed.depth_lt present) count
    exact ⟨s', by simpa [maxDepth, Nat.lt_succ_iff] using ran, nested⟩

/-- Under a first root there is room for 999 frames, and the next one is refused. -/
theorem reachable_store_invariant_initial :
    State.initial.store.Reachable ∧
      ∃ s', (Eval.nest 1000 0).outcome .initial = (.ok (999, some (.stackLimit 1000)), s') ∧
        s'.store.size = 1000 := by
  have reachable : State.initial.store.Reachable := Store.reachable_initial
  obtain ⟨_, _, _, opens⟩ := reachable_store_invariant reachable
  obtain ⟨s', ran, nested⟩ := opens 0 1000 (by decide)
  have depth : State.initial.store.depth 0 = 0 := rfl
  have opened : min 1000 (999 - 0) = 998 + 1 := rfl
  have size : State.initial.store.size = 1 := rfl
  rw [depth, opened] at ran nested
  refine ⟨reachable, s', ?_, by rw [nested.size_eq, size]⟩
  rw [ran, Store.innermost, size, if_neg (by decide)]

end DynamicLisp
