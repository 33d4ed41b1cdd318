import DynamicLisp.Proofs.Evaluation.Ceiling
import DynamicLisp.Proofs.Evaluation.Targets

/-!
# The log as a stack trace

Evaluation leaves a record when it opens a frame for a call, when it binds a name and
when it refuses a frame. The records that one evaluation leaves tell how it went up and
down the frames: every frame that was opened has its record, and no record is deeper
than the calls before it allow.

An evaluation inside another starts where the records so far have led, which may be
deeper than its own frame. What is said of the records is therefore said for every
depth that they may start from.
-/

namespace DynamicLisp

namespace Record

/-- The depth of the frame that a record is about. -/
def depth : Record → Nat
  | define _ depth => depth
  | defineFunction _ depth => depth
  | call _ _ depth => depth
  | refused depth => depth

/-- The depth of the latest call, once a record has been added. -/
def step (latest : Nat) (record : Record) : Nat :=
  if record.level = .trace then record.depth else latest

/-- The depth of the latest call among the records, or `start` if there is none. -/
def latest (start : Nat) (records : List Record) : Nat :=
  records.foldl step start

/-- Whether a record fits into the log of an evaluation at depth `base` after a call at
depth `latest`. A call goes in by one frame at most, and a definition is made in a frame
from which there may have been calls. -/
def Fits (base latest : Nat) (record : Record) : Prop :=
  match record.level with
  | .trace => base < record.depth ∧ record.depth < maxDepth ∧ record.depth ≤ latest + 1
  | .debug => base ≤ record.depth ∧ record.depth ≤ latest
  | .warn => record.depth = maxDepth

/-- Every record fits after those before it. -/
def AllFit (base : Nat) : (start : Nat) → List Record → Prop
  | _, [] => True
  | start, record :: records =>
    record.Fits base start ∧ AllFit base (step start record) records

/-- The names that are defined at a depth. -/
def definedAt (depth : Nat) (records : List Record) : List String :=
  records.filterMap fun
    | define name d => if d = depth then some name else none
    | defineFunction name d => if d = depth then some name else none
    | _ => none

/-- No frame was refused. -/
def Unrefused (records : List Record) : Prop :=
  ∀ record ∈ records, record.level ≠ .warn

/-- The records and the outcome agree on whether a frame was refused. If so, the refusal
is the last record. -/
inductive Settles (records : List Record) : Except Error Value → Prop where
  | otherwise {outcome} (other : ∀ depth, outcome ≠ .error (.stackLimit depth))
      (unrefused : Unrefused records) : Settles records outcome
  | refused {before} (shape : records = before ++ [.refused maxDepth])
      (unrefused : Unrefused before) : Settles records (.error (.stackLimit maxDepth))

variable {base start : Nat} {record : Record} {first second : List Record}

section Depths

theorem latest_cons (start : Nat) (record : Record) (records : List Record) :
    latest start (record :: records) = latest (step start record) records := rfl

theorem latest_of_no_call (none : ∀ record ∈ first, record.level ≠ .trace) :
    latest start first = start := by
  induction first with
  | nil => rfl
  | cons record records ih =>
      obtain ⟨noCall, later⟩ := List.forall_mem_cons.mp none
      rw [latest_cons, step, if_neg noCall, ih later]

theorem Fits.mono {lower latest : Nat} (fits : record.Fits base latest) (below : lower ≤ base) :
    record.Fits lower latest := by
  unfold Fits at fits ⊢
  split at fits <;> omega

/-- No record leads out of the frame of the evaluation. -/
theorem Fits.le_step (fits : record.Fits base start) (above : base ≤ start) :
    base ≤ step start record := by
  unfold step
  split
  · next call =>
    simp only [Fits, call] at fits
    omega
  · exact above

theorem AllFit.le_latest (fit : AllFit base start first) (above : base ≤ start) :
    base ≤ latest start first := by
  induction first generalizing start with
  | nil => exact above
  | cons record records ih => exact ih fit.2 (fit.1.le_step above)

theorem AllFit.mono {lower : Nat} (fit : AllFit base start first) (below : lower ≤ base) :
    AllFit lower start first := by
  induction first generalizing start with
  | nil => trivial
  | cons record records ih => exact ⟨fit.1.mono below, ih fit.2⟩

theorem allFit_append :
    AllFit base start (first ++ second) ↔
      AllFit base start first ∧ AllFit base (latest start first) second := by
  induction first generalizing start with
  | nil => simp [AllFit, latest]
  | cons record records ih =>
      rw [List.cons_append, AllFit, AllFit, ih, latest_cons, and_assoc]

end Depths

section Refusals

theorem unrefused_append : Unrefused (first ++ second) ↔ Unrefused first ∧ Unrefused second :=
  List.forall_mem_append

theorem Settles.of_ok {value : Value} (settles : Settles first (.ok value)) : Unrefused first := by
  cases settles with
  | otherwise _ unrefused => exact unrefused

theorem Settles.after {outcome : Except Error Value} (settles : Settles second outcome)
    (unrefused : Unrefused first) : Settles (first ++ second) outcome := by
  cases settles with
  | otherwise other later => exact .otherwise other (unrefused_append.mpr ⟨unrefused, later⟩)
  | refused shape later =>
      rw [shape, ← List.append_assoc]
      exact .refused rfl (unrefused_append.mpr ⟨unrefused, later⟩)

/-- A refusal has nothing after it and no other before it. -/
theorem Settles.eq_last {outcome : Except Error Value}
    (settles : Settles (first ++ record :: second) outcome) (warns : record.level = .warn) :
    record = .refused maxDepth ∧ second = [] ∧ Unrefused first := by
  cases settles with
  | otherwise _ unrefused => exact absurd warns (unrefused record (by simp))
  | @refused before shape unrefused =>
      obtain rfl | ⟨init, last, rfl⟩ := second.eq_nil_or_concat
      · obtain ⟨rfl, same⟩ := List.append_inj' shape rfl
        exact ⟨(List.cons.inj same).1, rfl, unrefused⟩
      · have longer : (first ++ record :: init) ++ [last] = before ++ [.refused maxDepth] := by
          simpa using shape
        obtain ⟨rfl, _⟩ := List.append_inj' longer rfl
        exact absurd warns (unrefused record (by simp))

end Refusals

theorem mem_definedAt {depth : Nat} {name : String} {records : List Record} :
    name ∈ definedAt depth records ↔
      define name depth ∈ records ∨ defineFunction name depth ∈ records := by
  simp only [definedAt, List.mem_filterMap]
  constructor
  · rintro ⟨record, member, defines⟩
    split at defines
    · split at defines
      · simp_all
      · cases defines
    · split at defines
      · simp_all
      · cases defines
    · cases defines
  · rintro (member | member)
    · exact ⟨_, member, by simp⟩
    · exact ⟨_, member, by simp⟩

theorem definedAt_append (depth : Nat) (first second : List Record) :
    definedAt depth (first ++ second) = definedAt depth first ++ definedAt depth second :=
  List.filterMap_append

end Record

open Record

/-- What the records that an evaluation in frame `f` adds to the log say about it. -/
structure Logs (f : FrameId) (s : State) (outcome : Except Error Value) (s' : State)
    (records : List Record) : Prop where
  log : s'.log.toList = s.log.toList ++ records
  depth : s'.store.depth f = s.store.depth f
  frames : s'.store.size = s.store.size + records.countP (·.level = .trace)
  fit : ∀ start, s.store.depth f ≤ start → AllFit (s.store.depth f) start records
  settles : Settles records outcome
  binds : Store.BindsOnly f (definedAt (s.store.depth f) records) s.store s'.store

namespace Logs

variable {f : FrameId} {s s₁ s' : State} {outcome : Except Error Value}
variable {records later : List Record}

/-- Nothing is recorded where nothing happens to the store. -/
theorem silent (log : s'.log = s.log) (store : s'.store = s.store)
    (other : ∀ depth, outcome ≠ .error (.stackLimit depth)) : Logs f s outcome s' [] where
  log := by rw [log, List.append_nil]
  depth := by rw [store]
  frames := by rw [store]; rfl
  fit _ _ := trivial
  settles := .otherwise other (by simp [Unrefused])
  binds := by rw [store]; exact .refl _ _ _

/-- One evaluation after another that succeeded, in the same frame. -/
theorem andThen {value : Value} (first : Logs f s (.ok value) s₁ records)
    (second : Logs f s₁ outcome s' later) : Logs f s outcome s' (records ++ later) where
  log := by rw [second.log, first.log, List.append_assoc]
  depth := second.depth.trans first.depth
  frames := by rw [second.frames, first.frames, List.countP_append, Nat.add_assoc]
  fit start above := by
    have fit := first.fit start above
    have fit' := second.fit (latest start records)
    rw [first.depth] at fit'
    exact allFit_append.mpr ⟨fit, fit' (fit.le_latest above)⟩
  settles := second.settles.after first.settles.of_ok
  binds := by
    have binds := second.binds
    rw [first.depth] at binds
    rw [definedAt_append]
    exact (first.binds.mono (List.subset_append_left _ _)).trans
      (binds.mono (List.subset_append_right _ _))

/-- What comes after an evaluation need not leave a record. -/
theorem andThen_silent {value : Value} (first : Logs f s (.ok value) s' records)
    (other : ∀ depth, outcome ≠ .error (.stackLimit depth)) : Logs f s outcome s' records := by
  simpa using first.andThen (silent rfl rfl other)

/-- A definition is recorded at the depth of its frame. -/
theorem define {name : String} {value result : Value} {event : Record}
    (present : f < s.store.size)
    (recorded : event = .define name (s.store.depth f) ∨
      event = .defineFunction name (s.store.depth f))
    (log : s'.log = s.log.push event) (store : s'.store = s.store.set f name value) :
    Logs f s (.ok result) s' [event] where
  log := by rw [log, Array.toList_push]
  depth := by rw [store, (Store.WritesOnly.set f s.store name value).depth_eq present]
  frames := by
    rw [store, Store.size_set]
    obtain rfl | rfl := recorded <;> rfl
  fit start above := by
    obtain rfl | rfl := recorded <;> exact ⟨⟨Nat.le_refl _, above⟩, trivial⟩
  settles := by
    refine .otherwise (by simp) ?_
    obtain rfl | rfl := recorded <;> simp [Unrefused, level]
  binds := by
    rw [store]
    apply Store.BindsOnly.set present
    obtain rfl | rfl := recorded <;> simp [mem_definedAt]

/-- A frame is refused only where it would be at `maxDepth`. -/
theorem refuse (formed : s.store.WellFormed) (present : f < s.store.size)
    (deep : maxDepth ≤ s.store.depth f + 1) :
    Logs f s (.error (.stackLimit (s.store.depth f + 1)))
      (s.record (.refused (s.store.depth f + 1))) [.refused (s.store.depth f + 1)] := by
  have shallow := formed.depth_lt present
  have limit : s.store.depth f + 1 = maxDepth := by omega
  rw [limit]
  exact
    { log := by simp [State.record]
      depth := rfl
      frames := rfl
      fit := fun _ _ => ⟨rfl, trivial⟩
      settles := .refused (List.nil_append _).symm (by simp [Unrefused])
      binds := .refl _ _ _ }

/-- A call is recorded before its body is evaluated, one frame further in. What the body
binds is in the frame of the call. -/
theorem call {name : Option String} {params : List String} {args : List Value} {body : Value}
    (present : f < s.store.size) (shallow : s.store.depth f + 1 < maxDepth)
    (ran : Evaluates .standard s.store.size (.expr body) (s.enter f name params args) outcome s')
    (inner : Logs s.store.size (s.enter f name params args) outcome s' records) :
    Logs f s outcome s' (.call name params.length (s.store.depth f + 1) :: records) where
  log := by
    rw [inner.log]
    simp [State.enter, State.record, State.push]
  depth := (ran.writesOwn.of_inner f).depth_eq present
  frames := by
    rw [inner.frames, State.store_enter, Store.size_push, List.countP_cons_of_pos rfl]
    omega
  fit start above := by
    have fit := inner.fit (s.store.depth f + 1) (Nat.le_of_eq (State.depth_enter ..))
    rw [State.depth_enter] at fit
    refine ⟨⟨Nat.lt_succ_self _, shallow, Nat.succ_le_succ above⟩, ?_⟩
    exact fit.mono (Nat.le_succ _)
  settles := by
    have unrefused : Unrefused [.call name params.length (s.store.depth f + 1)] := by
      simp [Unrefused, level]
    exact inner.settles.after unrefused
  binds := .of_frame?_eq (ran.frame?_of_call present)

end Logs

/-- A head that stands for nothing is an error of its own. -/
theorem Registry.ne_stackLimit_of_resolve {registry : Registry} {store : Store} {f : FrameId}
    {head : Value} {error : Error} (resolved : registry.resolve store f head = .error error)
    (depth : Nat) : error ≠ .stackLimit depth := by
  have resolution := registry.resolution store f head
  rw [resolved] at resolution
  cases resolution <;> simp

section Evaluations

variable {f : FrameId} {s s' : State} {outcome : Except Error Value}

/-- Every evaluation leaves records that tell how it went. -/
theorem Evaluates.logs {task : Task} (h : Evaluates .standard f task s outcome s')
    (present : f < s.store.size) (formed : s.store.WellFormed) :
    ∃ records, Logs f s outcome s' records := by
  induction h with
  | bound | itself | quote | lambda | noOperands | unbound | wrongCount =>
      exact ⟨[], .silent rfl rfl (by simp)⟩
  | unresolved resolved =>
      have other := Registry.ne_stackLimit_of_resolve resolved
      exact ⟨[], .silent rfl rfl (by simpa using other)⟩
  | malformedTarget _ shape =>
      obtain ⟨fault, rfl⟩ := SpecialForms.structural_of_target shape
      exact ⟨[], .silent rfl rfl (by simp)⟩
  | malformedParameters _ shape =>
      obtain ⟨fault, rfl⟩ := SpecialForms.structural_of_parameters shape
      exact ⟨[], .silent rfl rfl (by simp)⟩
  | testFails _ _ ih | definitionFails _ _ _ ih | operandFails _ _ _ ih | firstFails _ ih =>
      exact ih present formed
  | choose _ before _ first second | laterFails before _ first second =>
      obtain ⟨records, logs⟩ := first present formed
      obtain ⟨later, logs'⟩ :=
        second (before.writesOwn.lt_size present) (before.wellFormed present formed)
      exact ⟨records ++ later, logs.andThen logs'⟩
  | operands before _ first second =>
      obtain ⟨records, logs⟩ := first present formed
      obtain ⟨later, logs'⟩ :=
        second (before.writesOwn.lt_size present) (before.wellFormed present formed)
      exact ⟨records ++ later, (logs.andThen logs').andThen_silent (by simp)⟩
  | defineValue _ _ before ih =>
      obtain ⟨records, logs⟩ := ih present formed
      have caller := before.writesOwn.lt_size present
      exact ⟨_, logs.andThen (.define caller (.inl rfl) rfl rfl)⟩
  | defineFunction => exact ⟨_, .define present (.inr rfl) rfl rfl⟩
  | primitive resolved _ ran _ ih =>
      have refuses := Primitive.onlyRefuses_of_find? (Registry.find?_primitive_of_resolve resolved)
      obtain ⟨records, logs⟩ := ih present formed
      rw [Registry.eq_of_ran_standard resolved ran]
      exact ⟨records, logs.andThen_silent (refuses.ne_stackLimit _ ran)⟩
  | callCount _ _ _ ih =>
      obtain ⟨records, logs⟩ := ih present formed
      exact ⟨records, logs.andThen_silent (by simp)⟩
  | callTooDeep _ before _ deep ih =>
      obtain ⟨records, logs⟩ := ih present formed
      have caller := before.writesOwn.lt_size present
      exact ⟨_, logs.andThen (.refuse (before.wellFormed present formed) caller deep)⟩
  | call _ before _ shallow ran ih inner =>
      obtain ⟨records, logs⟩ := ih present formed
      have caller := before.writesOwn.lt_size present
      have placed := Store.placed_under caller shallow
      obtain ⟨later, logs'⟩ := inner (State.lt_size_enter _ _ _ _ _)
        ((before.wellFormed present formed).push (placed _))
      exact ⟨_, logs.andThen (.call caller shallow ran logs')⟩

/-- The records of an evaluation in frame `f` are a faithful trace of it. -/
structure Traces (f : FrameId) (s : State) (outcome : Except Error Value) (s' : State)
    (records : List Record) : Prop where
  /-- They are what the evaluation adds to the log. -/
  log : s'.log.toList = s.log.toList ++ records
  /-- Every frame that was opened is recorded as a call, and nothing else is. -/
  frames : s'.store.size = s.store.size + records.countP (·.level = .trace)
  /-- Calls are deeper than the frame of the evaluation and not too deep, and each is at
  most one deeper than the call before it. -/
  calls : ∀ before record after, records = before ++ record :: after → record.level = .trace →
    s.store.depth f < record.depth ∧ record.depth < maxDepth ∧
      record.depth ≤ latest (s.store.depth f) before + 1
  /-- The first call is made from the frame of the evaluation. -/
  firstCall : ∀ record, records.find? (·.level = .trace) = some record →
    record.depth = s.store.depth f + 1
  /-- A definition is made between the frame of the evaluation and the latest call. -/
  definitions : ∀ before record after, records = before ++ record :: after →
    record.level = .debug →
      s.store.depth f ≤ record.depth ∧ record.depth ≤ latest (s.store.depth f) before
  /-- The evaluation stops at the stack limit just where a frame is refused. -/
  limit : (∃ depth, outcome = .error (.stackLimit depth)) ↔ ∃ record ∈ records, record.level = .warn
  /-- There is one refusal at most. It is the last record and tells the depth. -/
  refusal : ∀ before record after, records = before ++ record :: after → record.level = .warn →
    record = .refused maxDepth ∧ after = [] ∧ ∀ earlier ∈ before, earlier.level ≠ .warn
  /-- Whatever is bound anew in the frame of the evaluation is recorded there. -/
  bindings : ∀ name, (s'.store.own f).find? name ≠ (s.store.own f).find? name →
    .define name (s.store.depth f) ∈ records ∨ .defineFunction name (s.store.depth f) ∈ records

/-- Where a record stands in the log, it fits. -/
theorem Logs.fits {records before after : List Record} {record : Record}
    (logs : Logs f s outcome s' records) (shape : records = before ++ record :: after) :
    record.Fits (s.store.depth f) (latest (s.store.depth f) before) := by
  have fit := logs.fit _ (Nat.le_refl _)
  rw [shape, allFit_append] at fit
  exact fit.2.1

theorem Logs.traces {records : List Record} (logs : Logs f s outcome s' records) :
    Traces f s outcome s' records where
  log := logs.log
  frames := logs.frames
  calls before record after shape call := by
    have fits := logs.fits shape
    simpa only [Fits, call] using fits
  firstCall record found := by
    obtain ⟨call, before, after, shape, none⟩ := List.find?_eq_some_iff_append.mp found
    have fits := logs.fits shape
    have call : record.level = .trace := of_decide_eq_true call
    simp only [Fits, call, latest_of_no_call (by simpa using none)] at fits
    omega
  definitions before record after shape definition := by
    have fits := logs.fits shape
    simpa only [Fits, definition] using fits
  limit := by
    cases logs.settles with
    | otherwise other unrefused =>
        exact ⟨fun ⟨depth, same⟩ => absurd same (other depth),
          fun ⟨record, member, warns⟩ => absurd warns (unrefused record member)⟩
    | refused shape =>
        exact ⟨fun _ => ⟨.refused maxDepth, by simp [shape], rfl⟩, fun _ => ⟨maxDepth, rfl⟩⟩
  refusal before record after shape warns := by
    have settles := logs.settles
    rw [shape] at settles
    exact settles.eq_last warns
  bindings name differs := mem_definedAt.mp (logs.binds.changed name differs)

/-- Whatever is evaluated in a frame of a reachable store, and whether or not it succeeds,
the records that it adds to the log are a faithful trace of it. -/
theorem eval_log_traces (reachable : s.store.Reachable) (present : f < s.store.size)
    (expr : Value) :
    ∃ outcome s' records, (Registry.standard.eval f expr).outcome s = (outcome, s') ∧
      Traces f s outcome s' records := by
  have formed := reachable.wellFormed
  obtain ⟨outcome, s', ran, h⟩ := Registry.standard_outcome present expr
  obtain ⟨records, logs⟩ := h.logs present formed
  exact ⟨outcome, s', records, ran, logs.traces⟩

end Evaluations

/-- A call of a closure whose body defines a name. -/
def Value.definingCall : Value :=
  .list [.closure 0 [] (.list [.symbol "define", .symbol "z", .int 1])]

/-- The state that the call leaves if it is made from frame 1. -/
def State.defining : State := (State.hiding.enter 1 none [] []).define 2 "z" (.int 1)

theorem State.evaluates_definingCall :
    Evaluates .standard 1 (.expr .definingCall) .hiding (.ok (.symbol "z")) .defining :=
  .call rfl .noOperands rfl (by decide) (.defineValue rfl rfl (.itself rfl))

/-- The definition is made in the frame of the call, one deeper than frame 1, and leaves
nothing in frame 1. -/
theorem eval_log_traces_definingCall :
    State.hiding.store.Reachable ∧ 1 < State.hiding.store.size ∧
      Traces 1 .hiding (.ok (.symbol "z")) .defining [.call none 0 2, .define "z" 2] := by
  have present : 1 < State.hiding.store.size := by decide
  obtain ⟨outcome, s', records, ran, traces⟩ :=
    eval_log_traces State.reachable_hiding present .definingCall
  rw [State.evaluates_definingCall.eval_eq present] at ran
  obtain ⟨rfl, rfl⟩ := Prod.mk.inj ran
  obtain rfl : [.call none 0 2, .define "z" 2] = records := traces.log
  exact ⟨State.reachable_hiding, present, traces⟩

end DynamicLisp
