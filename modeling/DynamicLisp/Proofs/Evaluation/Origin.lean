import DynamicLisp.Proofs.Evaluation.Ceiling
import Mathlib.Logic.Relation

/-!
# Where errors come from

An evaluation fails because it raises an error itself or because an evaluation that it
demands fails. In the second case the error is passed on as it is. Chains of demands
are finite, so every error is raised by some evaluation inside the one that reports it.

An arity error is raised where a list is evaluated, for what its head stands for and
with the number of its operands.
-/

namespace DynamicLisp

/-- Evaluating the configuration raises the error: the evaluations that it demands
succeed, and the error is its own. -/
inductive Config.Raises (registry : Registry) : Config → Error → Prop where
  | unbound {f name s} (missing : s.store.get? f name = none) :
      Raises registry ⟨f, .symbol name, s⟩ (.unbound name)
  | unresolved {f head operands error s}
      (resolved : registry.resolve s.store f head = .error error) :
      Raises registry ⟨f, .list (head :: operands), s⟩ error
  | wrongCount {f head operands name form s}
      (resolved : registry.resolve s.store f head = .ok (.form name form))
      (count : form.arity.admits operands.length = false) :
      Raises registry ⟨f, .list (head :: operands), s⟩
        (.arity form.arity operands.length (some name))
  | malformedTarget {f head signature body name error s}
      (resolved : registry.resolve s.store f head = .ok (.form name .define))
      (shape : SpecialForms.target signature = .error error) :
      Raises registry ⟨f, .list [head, signature, body], s⟩ error
  | malformedParameters {f head names body name error s}
      (resolved : registry.resolve s.store f head = .ok (.form name .lambda))
      (shape : SpecialForms.parameters names = .error error) :
      Raises registry ⟨f, .list [head, names, body], s⟩ error
  | primitive {f head operands name primitive args error s s₁ s₂}
      (resolved : registry.resolve s.store f head = .ok (.primitive name primitive))
      (evaluated : Evaluates registry f (.operands operands) s (.ok (.list args)) s₁)
      (refused : (primitive.runChecked f args).outcome s₁ = (.error error, s₂)) :
      Raises registry ⟨f, .list (head :: operands), s⟩ (error.namedBy name)
  | callCount {f head operands name params body args s s₁}
      (resolved : registry.resolve s.store f head = .ok (.closure name params body))
      (evaluated : Evaluates registry f (.operands operands) s (.ok (.list args)) s₁)
      (count : params.length ≠ args.length) :
      Raises registry ⟨f, .list (head :: operands), s⟩
        (.arity (.exact params.length) args.length name)
  | callTooDeep {f head operands name params body args s s₁}
      (resolved : registry.resolve s.store f head = .ok (.closure name params body))
      (evaluated : Evaluates registry f (.operands operands) s (.ok (.list args)) s₁)
      (count : params.length = args.length) (deep : maxDepth ≤ s₁.store.depth f + 1) :
      Raises registry ⟨f, .list (head :: operands), s⟩ (.stackLimit (s₁.store.depth f + 1))

/-- Evaluating the configuration fails with the error. -/
def Config.Fails (registry : Registry) (c : Config) (error : Error) : Prop :=
  ∃ s', Evaluates registry c.frame (.expr c.expr) c.state (.error error) s'

section Origin

variable {registry : Registry} {f : FrameId} {s s' : State} {error : Error}

/-- Operands fail at the first of them that fails. -/
theorem Evaluates.exists_failing_operand {operands : List Value}
    (h : Evaluates registry f (.operands operands) s (.error error) s') :
    ∃ before expr after values s₁, operands = before ++ expr :: after ∧
      Evaluates registry f (.operands before) s (.ok (.list values)) s₁ ∧
      Config.Fails registry ⟨f, expr, s₁⟩ error := by
  induction operands generalizing s with
  | nil => cases h
  | cons expr exprs ih =>
      cases h with
      | firstFails first => exact ⟨[], expr, exprs, [], s, rfl, .noOperands, s', first⟩
      | laterFails first later =>
          obtain ⟨before, failing, after, values, s₁, rfl, evaluated, fails⟩ := ih later
          exact ⟨expr :: before, failing, after, _, s₁, rfl, .operands first evaluated, fails⟩

/-- One step towards the origin of an error. -/
theorem Config.Fails.raises_or_demands {c : Config} (fails : c.Fails registry error) :
    c.Raises registry error ∨ ∃ next, Demands registry c next ∧ next.Fails registry error := by
  obtain ⟨f, expr, s⟩ := c
  obtain ⟨s', h⟩ := fails
  generalize failed : Except.error error = outcome at h
  cases h with
  | bound | itself | quote | defineValue | defineFunction | lambda => cases failed
  | unbound missing =>
      cases failed
      exact .inl (.unbound missing)
  | unresolved resolved =>
      cases failed
      exact .inl (.unresolved resolved)
  | wrongCount resolved count =>
      cases failed
      exact .inl (.wrongCount resolved count)
  | testFails resolved tested =>
      cases failed
      exact .inr ⟨_, .test resolved, _, tested⟩
  | choose resolved tested chosen =>
      cases failed
      exact .inr ⟨_, .branch resolved tested, _, chosen⟩
  | malformedTarget resolved shape =>
      cases failed
      exact .inl (.malformedTarget resolved shape)
  | definitionFails resolved shape evaluated =>
      cases failed
      exact .inr ⟨_, .definition resolved shape, _, evaluated⟩
  | malformedParameters resolved shape =>
      cases failed
      exact .inl (.malformedParameters resolved shape)
  | operandFails resolved eager evaluated =>
      cases failed
      obtain ⟨before, failing, after, values, s₁, rfl, earlier, fails⟩ :=
        evaluated.exists_failing_operand
      exact .inr ⟨_, .operand resolved eager earlier, fails⟩
  | @primitive _ _ _ _ _ _ result _ _ _ resolved evaluated ran =>
      cases result with
      | ok value => cases failed
      | error found =>
          cases failed
          exact .inl (.primitive resolved evaluated ran)
  | callCount resolved evaluated count =>
      cases failed
      exact .inl (.callCount resolved evaluated count)
  | callTooDeep resolved evaluated count deep =>
      cases failed
      exact .inl (.callTooDeep resolved evaluated count deep)
  | call resolved evaluated count shallow ran =>
      cases failed
      exact .inr ⟨_, .body resolved evaluated count shallow, _, ran⟩

/-- Every error is raised by some evaluation inside the one that fails with it. -/
theorem Config.Fails.exists_origin {c : Config} (fails : c.Fails registry error)
    (present : c.frame < c.state.store.size) :
    ∃ origin, Relation.ReflTransGen (Demands registry) c origin ∧
      origin.Raises registry error := by
  -- Follow the failing demands; there is no infinite chain of them.
  have accessible : Acc (fun inner outer => Demands registry outer inner) c :=
    c.acc_demands present
  induction accessible with
  | intro c _ ih =>
      obtain raised | ⟨next, step, fails⟩ := fails.raises_or_demands
      · exact ⟨c, .refl, raised⟩
      · obtain ⟨origin, steps, raised⟩ := ih next step fails (step.present present)
        exact ⟨origin, .head step steps, raised⟩

end Origin

section Arity

variable {f : FrameId} {s s' : State} {expected : Arity} {got : Nat} {operator : Option String}

/-- There are as many values as operands. -/
theorem Evaluates.length_operands {registry : Registry} {operands args : List Value}
    (h : Evaluates registry f (.operands operands) s (.ok (.list args)) s') :
    args.length = operands.length := by
  induction operands generalizing s args with
  | nil =>
      cases h
      rfl
  | cons expr exprs ih =>
      cases h with
      | operands first later => rw [List.length_cons, List.length_cons, ih later]

/-- A primitive that has no complaint about the number of its arguments where its
arity admits it. -/
def Primitive.AcceptsAdmitted (primitive : Primitive) : Prop :=
  ∀ f args s, primitive.arity.admits args.length = true → ∀ expected got operator s',
    (primitive.run f args).outcome s ≠ (.error (.arity expected got operator), s')

theorem Primitive.acceptsAdmitted_ofIntegers {operation : String}
    {function : List Integer → Except Error Value}
    (overflows : ∀ ns error, function ns = .error error → error = .eval (.overflow operation)) :
    (ofIntegers .any function).AcceptsAdmitted := by
  intro f args s _ expected got operator s' ran
  obtain ⟨ns, failed⟩ | ⟨other, -, failed⟩ := of_ran_ofIntegers ran
  · exact nomatch overflows ns _ failed
  · cases failed

theorem Primitive.acceptsAdmitted_of_find? {name : String} {primitive : Primitive}
    (found : Registry.standard.primitives.find? name = some primitive) :
    primitive.AcceptsAdmitted := by
  refine forall_standard ?car ?cdr ?cons ?compare ?add ?subtract ?multiply found
  case car =>
    intro f args s admitted expected got operator s' ran
    obtain ⟨arg, -, failed⟩ | ⟨count, -⟩ := of_ran_ofFunction_one ran
    · unfold Lists.car at failed
      split at failed <;> cases failed
    · exact count (eq_of_beq admitted)
  case cdr =>
    intro f args s admitted expected got operator s' ran
    obtain ⟨arg, -, failed⟩ | ⟨count, -⟩ := of_ran_ofFunction_one ran
    · unfold Lists.cdr at failed
      split at failed <;> cases failed
    · exact count (eq_of_beq admitted)
  case cons =>
    intro f args s admitted expected got operator s' ran
    obtain ⟨item, tail, -, failed⟩ | ⟨count, -⟩ := of_ran_ofFunction_two ran
    · unfold Lists.cons at failed
      split at failed <;> cases failed
    · exact count (eq_of_beq admitted)
  case compare =>
    intro relation f args s _ expected got operator s' ran
    cases ran
  case add => exact acceptsAdmitted_ofIntegers fun _ _ => Arithmetic.eq_overflow_of_fold
  case subtract =>
    have overflows : ∀ ns error, Arithmetic.subtract ns = .error error →
        error = .eval (.overflow "subtraction") := by
      intro ns error failed
      cases ns with
      | nil => cases failed
      | cons n ns => exact Arithmetic.eq_overflow_of_fold failed
    exact acceptsAdmitted_ofIntegers overflows
  case multiply => exact acceptsAdmitted_ofIntegers fun _ _ => Arithmetic.eq_overflow_of_fold

/-- An arity error of a checked primitive tells its arity and the number of arguments,
which the arity rejects. It has no name yet. -/
theorem Primitive.AcceptsAdmitted.arity_of_runChecked {primitive : Primitive}
    (accepts : primitive.AcceptsAdmitted) {args : List Value}
    (failed : (primitive.runChecked f args).outcome s =
      (.error (.arity expected got operator), s')) :
    got = args.length ∧ operator = none ∧ expected.admits got = false := by
  rw [outcome_runChecked] at failed
  split at failed
  · next admitted => exact absurd failed (accepts f args s admitted expected got operator s')
  · next rejected =>
    cases failed
    exact ⟨rfl, rfl, Bool.eq_false_iff.mpr rejected⟩

theorem Error.eq_arity_of_namedBy {name : String} {error : Error}
    (same : error.namedBy name = .arity expected got operator) :
    ∃ earlier, error = .arity expected got earlier ∧ operator = earlier.or (some name) := by
  cases error with
  | arity expected' got' earlier =>
      cases earlier with
      | none =>
          cases same
          exact ⟨none, rfl, rfl⟩
      | some found =>
          cases same
          exact ⟨some found, rfl, rfl⟩
  | _ => cases same

/-- An arity error is raised where a list is evaluated. If no closure stands at its
head, a symbol does, which names the operator in the error. The error counts the
operands of the list, and the arity it expects rejects their number. -/
theorem Config.Raises.arity {c : Config}
    (raised : c.Raises .standard (.arity expected got operator))
    (plain : ∀ id params body operands, c.expr ≠ .list (.closure id params body :: operands)) :
    ∃ name operands, c.expr = .list (.symbol name :: operands) ∧ operator = some name ∧
      got = operands.length ∧ expected.admits got = false := by
  generalize failed : Error.arity expected got operator = error at raised
  cases raised with
  | unbound | callTooDeep => cases failed
  | @unresolved f head operands error s resolved =>
      -- An unbound name, a value that is no closure, and any other head have errors of their own.
      have resolution := Registry.standard.resolution s.store f head
      rw [resolved] at resolution
      cases resolution <;> cases failed
  | @wrongCount f head operands name form s resolved count =>
      cases failed
      have resolution := Registry.standard.resolution s.store f head
      rw [resolved] at resolution
      cases resolution with
      | form => exact ⟨name, operands, rfl, rfl, rfl, count⟩
  | malformedTarget _ shape =>
      obtain ⟨fault, rfl⟩ := SpecialForms.structural_of_target shape
      cases failed
  | malformedParameters _ shape =>
      obtain ⟨fault, rfl⟩ := SpecialForms.structural_of_parameters shape
      cases failed
  | @primitive f head operands name primitive args error s s₁ s₂ resolved evaluated refused =>
      obtain ⟨earlier, rfl, rfl⟩ := Error.eq_arity_of_namedBy failed.symm
      have accepts :=
        Primitive.acceptsAdmitted_of_find? (Registry.find?_primitive_of_resolve resolved)
      obtain ⟨rfl, rfl, rejected⟩ := accepts.arity_of_runChecked refused
      have resolution := Registry.standard.resolution s.store f head
      rw [resolved] at resolution
      cases resolution with
      | primitive =>
          rw [evaluated.length_operands] at rejected ⊢
          exact ⟨name, operands, rfl, rfl, rfl, rejected⟩
  | @callCount f head operands name params body args s s₁ resolved evaluated count =>
      cases failed
      have resolution := Registry.standard.resolution s.store f head
      rw [resolved] at resolution
      cases resolution with
      | closure => exact absurd rfl (plain _ _ _ _)
      | bound =>
          rw [evaluated.length_operands] at count ⊢
          exact ⟨_, operands, rfl, rfl, rfl, by simpa [Arity.admits] using Ne.symm count⟩

end Arity

end DynamicLisp
