import DynamicLisp.Proofs.Evaluation.Effects
import DynamicLisp.Proofs.Table
import Mathlib.Tactic.SplitIfs

/-!
# What the standard registry holds

The special forms are found under exactly four names. Primitives look at their
arguments only, so where they are called from makes no difference to them. They leave
the state as it is, and they fail only by refusing their arguments.
-/

namespace DynamicLisp

namespace Primitive

variable {arity : Arity} {function : List Value → Except Error Value}

@[simp] theorem outcome_run_ofValues (f : FrameId) (args : List Value) (s : State) :
    ((ofValues arity function).run f args).outcome s = (function args, s) :=
  Eval.outcome_ofExcept _ _

theorem outcome_run_ofIntegers {function : List Integer → Except Error Value} (f : FrameId)
    (args : List Value) (s : State) :
    ((ofIntegers arity function).run f args).outcome s = ((integers args).bind function, s) :=
  Eval.outcome_ofExcept _ _

/-- A primitive whose result depends on its arguments alone. -/
def IgnoresEnvironment (primitive : Primitive) : Prop :=
  ∀ f g args s t, ((primitive.run f args).outcome s).1 = ((primitive.run g args).outcome t).1

theorem IgnoresEnvironment.runChecked_eq {primitive : Primitive}
    (ignores : primitive.IgnoresEnvironment) (f g : FrameId) (args : List Value) (s t : State) :
    ((primitive.runChecked f args).outcome s).1 = ((primitive.runChecked g args).outcome t).1 := by
  rw [outcome_runChecked, outcome_runChecked]
  split
  · exact ignores f g args s t
  · rfl

/-- What holds of the list operations, the comparisons and the arithmetic holds of
every standard primitive. -/
theorem forall_standard {P : Primitive → Prop} (car : P (ofFunction [.value] Lists.car))
    (cdr : P (ofFunction [.value] Lists.cdr)) (cons : P (ofFunction [.value, .value] Lists.cons))
    (compare : ∀ relation, P (comparison relation))
    (add : P (ofIntegers .any Arithmetic.add))
    (subtract : P (ofIntegers .any Arithmetic.subtract))
    (multiply : P (ofIntegers .any Arithmetic.multiply)) {name : String} {primitive : Primitive}
    (found : Registry.standard.primitives.find? name = some primitive) : P primitive := by
  rw [Registry.standard, Table.find?_ofList] at found
  have member := List.mem_reverse.mp (Table.mem_of_lookup found)
  simp only [standard, List.mem_cons, List.not_mem_nil, or_false, Prod.mk.injEq] at member
  rcases member with ⟨_, rfl⟩ | ⟨_, rfl⟩ | ⟨_, rfl⟩ | ⟨_, rfl⟩ | ⟨_, rfl⟩ | ⟨_, rfl⟩ | ⟨_, rfl⟩ |
    ⟨_, rfl⟩ | ⟨_, rfl⟩ | ⟨_, rfl⟩ | ⟨_, rfl⟩
  · exact car
  · exact cdr
  · exact cons
  · exact compare .eq
  · exact compare .gt
  · exact compare .lt
  · exact compare .ge
  · exact compare .le
  · exact add
  · exact subtract
  · exact multiply

theorem outcome_run_ofFunction_one (function : Value → Except Error Value) (f : FrameId)
    (args : List Value) (s : State) :
    ((ofFunction [.value] function).run f args).outcome s =
      (match args with
        | [arg] => function arg
        | _ => .error (.arity (.exact 1) args.length none), s) := by
  rcases args with _ | ⟨first, _ | ⟨second, rest⟩⟩ <;> exact outcome_run_ofValues _ _ _

theorem outcome_run_ofFunction_two (function : Value → Value → Except Error Value) (f : FrameId)
    (args : List Value) (s : State) :
    ((ofFunction [.value, .value] function).run f args).outcome s =
      (match args with
        | [first, second] => function first second
        | _ => .error (.arity (.exact 2) args.length none), s) := by
  rcases args with _ | ⟨first, _ | ⟨second, _ | ⟨third, rest⟩⟩⟩ <;>
    exact outcome_run_ofValues _ _ _

section Shapes

variable {f : FrameId} {args : List Value} {result : Except Error Value} {s s' : State}

/-- The function of one value gave the result, or else there was not one argument. -/
theorem of_ran_ofFunction_one {function : Value → Except Error Value}
    (ran : ((ofFunction [.value] function).run f args).outcome s = (result, s')) :
    (∃ arg, args = [arg] ∧ function arg = result) ∨
      args.length ≠ 1 ∧ result = .error (.arity (.exact 1) args.length none) := by
  rw [outcome_run_ofFunction_one] at ran
  obtain ⟨rfl, -⟩ := Prod.mk.inj ran
  rcases args with _ | ⟨arg, _ | ⟨other, args⟩⟩
  · exact .inr ⟨by simp, rfl⟩
  · exact .inl ⟨arg, rfl, rfl⟩
  · exact .inr ⟨by simp, rfl⟩

/-- The function of two values gave the result, or else there were not two arguments. -/
theorem of_ran_ofFunction_two {function : Value → Value → Except Error Value}
    (ran : ((ofFunction [.value, .value] function).run f args).outcome s = (result, s')) :
    (∃ first second, args = [first, second] ∧ function first second = result) ∨
      args.length ≠ 2 ∧ result = .error (.arity (.exact 2) args.length none) := by
  rw [outcome_run_ofFunction_two] at ran
  obtain ⟨rfl, -⟩ := Prod.mk.inj ran
  rcases args with _ | ⟨first, _ | ⟨second, _ | ⟨third, args⟩⟩⟩
  · exact .inr ⟨by simp, rfl⟩
  · exact .inr ⟨by simp, rfl⟩
  · exact .inl ⟨first, second, rfl, rfl⟩
  · exact .inr ⟨by simp, rfl⟩

theorem eq_notInteger_of_integers {args : List Value} {error : Error}
    (failed : integers args = .error error) :
    ∃ other ∈ args, error = .type (.notInteger other) := by
  induction args with
  | nil => cases failed
  | cons arg args ih =>
      cases arg with
      | int n =>
          rw [integers] at failed
          cases rest : integers args with
          | ok ns =>
              rw [rest] at failed
              cases failed
          | error found =>
              rw [rest] at failed
              cases failed
              obtain ⟨other, member, rfl⟩ := ih rest
              exact ⟨other, List.mem_cons_of_mem _ member, rfl⟩
      | _ =>
          cases failed
          exact ⟨_, List.mem_cons_self, rfl⟩

/-- The function of integers gave the result, or else some argument was no integer. -/
theorem of_ran_ofIntegers {arity : Arity} {function : List Integer → Except Error Value}
    (ran : ((ofIntegers arity function).run f args).outcome s = (result, s')) :
    (∃ ns, function ns = result) ∨
      ∃ other ∈ args, result = .error (.type (.notInteger other)) := by
  rw [outcome_run_ofIntegers] at ran
  obtain ⟨rfl, -⟩ := Prod.mk.inj ran
  cases converted : integers args with
  | ok ns => exact .inl ⟨ns, rfl⟩
  | error error =>
      obtain ⟨other, member, rfl⟩ := eq_notInteger_of_integers converted
      exact .inr ⟨other, member, rfl⟩

end Shapes

/-- A standard primitive is made from a function of its arguments. -/
theorem exists_ofValues_of_find? {name : String} {primitive : Primitive}
    (found : Registry.standard.primitives.find? name = some primitive) :
    ∃ arity function, primitive = ofValues arity function := by
  let P (primitive : Primitive) : Prop := ∃ arity function, primitive = ofValues arity function
  exact forall_standard (P := P) ⟨_, _, rfl⟩ ⟨_, _, rfl⟩ ⟨_, _, rfl⟩ (fun _ => ⟨_, _, rfl⟩)
    ⟨_, _, rfl⟩ ⟨_, _, rfl⟩ ⟨_, _, rfl⟩ found

end Primitive

namespace Registry

theorem find?_standard_forms (name : String) :
    standard.forms.find? name =
      if name = "lambda" then some .lambda
      else if name = "define" then some .define
      else if name = "if" then some .choose
      else if name = "quote" then some .quote
      else none := by
  simp only [standard, Table.find?_ofList, SpecialForms.standard, List.reverse_cons,
    List.reverse_nil, List.nil_append, List.cons_append, Table.lookup, eq_comm]

theorem standard_usesStandardForms : standard.UsesStandardForms := by
  intro name form found
  rw [find?_standard_forms] at found
  split_ifs at found
  · exact .inr (.inr (.inr (Option.some.inj found).symm))
  · exact .inr (.inr (.inl (Option.some.inj found).symm))
  · exact .inr (.inl (Option.some.inj found).symm)
  · exact .inl (Option.some.inj found).symm

theorem ignoresEnvironment_of_find? {name : String} {primitive : Primitive}
    (found : standard.primitives.find? name = some primitive) :
    primitive.IgnoresEnvironment := by
  obtain ⟨arity, function, rfl⟩ := Primitive.exists_ofValues_of_find? found
  intro f g args s t
  rw [Primitive.outcome_run_ofValues, Primitive.outcome_run_ofValues]

theorem standard_leavesFrames : standard.LeavesFrames := by
  intro name primitive found f args s
  obtain ⟨arity, function, rfl⟩ := Primitive.exists_ofValues_of_find? found
  rw [Primitive.outcome_run_ofValues]

theorem standard_respectsFrames {store : Store} : standard.RespectsFrames store :=
  standard_leavesFrames.respectsFrames store

/-- A standard primitive leaves the whole state as it is. -/
theorem eq_of_ran_standard {store : Store} {f : FrameId} {head : Value} {name : String}
    {primitive : Primitive} {args : List Value} {result : Except Error Value} {s s' : State}
    (resolved : standard.resolve store f head = .ok (.primitive name primitive))
    (ran : (primitive.runChecked f args).outcome s = (result, s')) : s' = s := by
  obtain ⟨arity, function, rfl⟩ :=
    Primitive.exists_ofValues_of_find? (find?_primitive_of_resolve resolved)
  rw [Primitive.outcome_runChecked, Primitive.outcome_run_ofValues] at ran
  split at ran <;> cases ran <;> rfl

end Registry

/-- With the standard operators, evaluation in a frame writes no other frame that was
there before. -/
theorem Evaluates.writesOwn {f : FrameId} {task : Task} {s s' : State}
    {outcome : Except Error Value} (h : Evaluates .standard f task s outcome s') :
    Store.WritesOnly f s.store s'.store :=
  h.writesOnly Registry.standard_leavesFrames

/-- The errors by which an operator refuses its arguments: their number is wrong, one
of them is of the wrong kind, or the operation has no result for them. -/
def Error.isRefusal : Error → Bool
  | arity .. => true
  | type _ => true
  | eval _ => true
  | _ => false

theorem Error.isRefusal_namedBy (name : String) (error : Error) :
    (error.namedBy name).isRefusal = error.isRefusal := by
  cases error with
  | arity expected got operator => cases operator <;> rfl
  | _ => rfl

theorem Arithmetic.eq_overflow_of_fold {operation : String} {combine : Int → Int → Int}
    {start : Integer} {ns : List Integer} {error : Error}
    (failed : fold operation combine start ns = .error error) :
    error = .eval (.overflow operation) := by
  induction ns generalizing start with
  | nil => cases failed
  | cons n ns ih =>
      rw [fold] at failed
      split at failed
      · exact ih failed
      · cases failed
        rfl

namespace Primitive

/-- A primitive that fails only by refusing its arguments. -/
def OnlyRefuses (primitive : Primitive) : Prop :=
  ∀ f args s error s', (primitive.run f args).outcome s = (.error error, s') →
    error.isRefusal = true

theorem OnlyRefuses.of_runChecked {primitive : Primitive} (refuses : primitive.OnlyRefuses)
    {f : FrameId} {args : List Value} {error : Error} {s s' : State}
    (failed : (primitive.runChecked f args).outcome s = (.error error, s')) :
    error.isRefusal = true := by
  rw [outcome_runChecked] at failed
  split at failed
  · exact refuses f args s error s' failed
  · cases failed
    rfl

theorem OnlyRefuses.ne_stackLimit {primitive : Primitive} (refuses : primitive.OnlyRefuses)
    (name : String) {f : FrameId} {args : List Value} {result : Except Error Value} {s s' : State}
    (ran : (primitive.runChecked f args).outcome s = (result, s')) (depth : Nat) :
    result.mapError (Error.namedBy name) ≠ .error (.stackLimit depth) := by
  cases result with
  | ok value => exact fun same => nomatch same
  | error error =>
      intro same
      have refusal := refuses.of_runChecked ran
      rw [← Error.isRefusal_namedBy name, Except.error.inj same] at refusal
      cases refusal

theorem onlyRefuses_ofFunction_one {function : Value → Except Error Value}
    (refuses : ∀ arg error, function arg = .error error → error.isRefusal = true) :
    (ofFunction [.value] function).OnlyRefuses := by
  intro f args s error s' ran
  obtain ⟨arg, -, failed⟩ | ⟨-, failed⟩ := of_ran_ofFunction_one ran
  · exact refuses arg error failed
  · cases failed
    rfl

theorem onlyRefuses_ofFunction_two {function : Value → Value → Except Error Value}
    (refuses : ∀ first second error, function first second = .error error →
      error.isRefusal = true) :
    (ofFunction [.value, .value] function).OnlyRefuses := by
  intro f args s error s' ran
  obtain ⟨first, second, -, failed⟩ | ⟨-, failed⟩ := of_ran_ofFunction_two ran
  · exact refuses first second error failed
  · cases failed
    rfl

theorem onlyRefuses_ofIntegers {function : List Integer → Except Error Value}
    (refuses : ∀ ns error, function ns = .error error → error.isRefusal = true) :
    (ofIntegers .any function).OnlyRefuses := by
  intro f args s error s' ran
  obtain ⟨ns, failed⟩ | ⟨other, -, failed⟩ := of_ran_ofIntegers ran
  · exact refuses ns error failed
  · cases failed
    rfl

theorem isRefusal_of_fold {operation : String} {combine : Int → Int → Int} {start : Integer}
    {ns : List Integer} {error : Error}
    (failed : Arithmetic.fold operation combine start ns = .error error) :
    error.isRefusal = true := by
  rw [Arithmetic.eq_overflow_of_fold failed]
  rfl

theorem onlyRefuses_of_find? {name : String} {primitive : Primitive}
    (found : Registry.standard.primitives.find? name = some primitive) :
    primitive.OnlyRefuses := by
  refine forall_standard (onlyRefuses_ofFunction_one ?_) (onlyRefuses_ofFunction_one ?_)
    (onlyRefuses_ofFunction_two ?_) ?_ (onlyRefuses_ofIntegers ?_) (onlyRefuses_ofIntegers ?_)
    (onlyRefuses_ofIntegers ?_) found
  · intro arg error failed
    unfold Lists.car at failed
    split at failed <;> cases failed <;> rfl
  · intro arg error failed
    unfold Lists.cdr at failed
    split at failed <;> cases failed <;> rfl
  · intro item tail error failed
    unfold Lists.cons at failed
    split at failed <;> cases failed
    rfl
  · intro relation f args s error s' failed
    cases failed
  · intro ns error failed
    exact isRefusal_of_fold failed
  · intro ns error failed
    cases ns with
    | nil => cases failed
    | cons n ns => exact isRefusal_of_fold failed
  · intro ns error failed
    exact isRefusal_of_fold failed

end Primitive

end DynamicLisp
