import DynamicLisp.Proofs.Evaluation.Adequacy
import DynamicLisp.Proofs.StandardRegistry

/-!
# How operators are applied

The number of operands is checked twice: the evaluator compares it with the arity that
the operator was registered with, and the operator looks at it itself. For the standard
special forms and for all primitives made from functions with a fixed number of
parameters the two checks agree. An operator that is run by itself therefore does the
same with and without the first check, and evaluating a list headed by its name does the
same again, except that the name is put into an arity error of the operator.

A typed function is run on arguments that fit its parameters and on no others.
-/

namespace DynamicLisp

/-- Only an arity error that names no operator gets the name. -/
theorem Eval.outcome_namedBy (name : String) (action : Eval Value) (s : State) :
    (mapError (Error.namedBy name) action).outcome s =
      match action.outcome s with
      | (.error (.arity expected got none), s') => (.error (.arity expected got (some name)), s')
      | result => result := by
  rw [outcome_mapError]
  obtain ⟨result, s'⟩ := action.outcome s
  cases result with
  | ok value => rfl
  | error error =>
      cases error with
      | arity expected got operator => cases operator <;> rfl
      | _ => rfl

/-- Operands that are evaluated give as many values. -/
theorem Operand.length_of_evalAll {operands : List Operand} {values : List Value} {s s' : State}
    (evaluated : (evalAll operands).outcome s = (.ok values, s')) :
    values.length = operands.length := by
  induction operands generalizing values s with
  | nil =>
      cases evaluated
      rfl
  | cons operand operands ih =>
      rw [evalAll] at evaluated
      cases first : operand.eval.outcome s with
      | mk result s₁ =>
          cases result with
          | error error =>
              rw [Eval.outcome_bind_error first] at evaluated
              cases evaluated
          | ok value =>
              rw [Eval.outcome_bind_ok first] at evaluated
              cases rest : (evalAll operands).outcome s₁ with
              | mk result s₂ =>
                  cases result with
                  | error error =>
                      rw [Eval.outcome_bind_error rest] at evaluated
                      cases evaluated
                  | ok later =>
                      rw [Eval.outcome_bind_ok rest] at evaluated
                      cases evaluated
                      rw [List.length_cons, List.length_cons, ih rest]

namespace Registry

variable {registry : Registry} {f : FrameId} {name : String} {exprs : List Value} {s : State}

theorem operandsWith_eq_map (registry : Registry) (inner : Inner) (f : FrameId)
    (exprs : List Value) :
    registry.operandsWith inner f exprs =
      exprs.map fun expr => ⟨expr, registry.evalWith inner f expr⟩ := by
  induction exprs with
  | nil => rfl
  | cons expr exprs ih => rw [operandsWith, ih, List.map_cons]

@[simp] theorem length_operands (registry : Registry) (f : FrameId) (exprs : List Value) :
    (registry.operands f exprs).length = exprs.length :=
  List.length_map _

/-- A list applies its head to operands that are evaluated as the list itself is. -/
theorem eval_list (registry : Registry) (f : FrameId) (head : Value) (exprs : List Value) :
    registry.eval f (.list (head :: exprs)) =
      registry.apply (registry.within levels) f head (registry.operands f exprs) := by
  rw [operands, eval, evalWithin_eq, evalWith, operandsWith_eq_map]

/-- A primitive is applied to the values of its operands. An operand that fails is what
the list fails with. -/
theorem outcome_eval_primitive {primitive : Primitive}
    (noForm : registry.forms.find? name = none)
    (found : registry.primitives.find? name = some primitive) :
    (registry.eval f (.list (.symbol name :: exprs))).outcome s =
      match (registry.evalAll f exprs).outcome s with
      | (.ok args, s') =>
        (Eval.mapError (Error.namedBy name) (primitive.runChecked f args)).outcome s'
      | (.error error, s') => (.error error, s') := by
  rw [eval_list, evalAll]
  simp only [apply, noForm, found]
  rw [applyPrimitive]
  cases evaluated : (Operand.evalAll (registry.operands f exprs)).outcome s with
  | mk result s' =>
      cases result with
      | error error => exact Eval.outcome_bind_error evaluated
      | ok args => exact Eval.outcome_bind_ok evaluated

end Registry

namespace SpecialForm

/-- One of the four special forms of the standard registry. -/
def IsStandard (form : SpecialForm) : Prop :=
  form = .quote ∨ form = .choose ∨ form = .define ∨ form = .lambda

variable {form : SpecialForm} {site : Site} {operands : List Operand}

/-- A standard form refuses the numbers of operands that its arity rejects. -/
theorem IsStandard.run_wrongCount (standard : form.IsStandard)
    (count : form.arity.admits operands.length = false) :
    form.run site operands = throw (.arity form.arity operands.length none) := by
  obtain rfl | rfl | rfl | rfl := standard
  · obtain _ | ⟨first, _ | ⟨second, rest⟩⟩ := operands
    · rfl
    · cases count
    · rfl
  · obtain _ | ⟨first, _ | ⟨second, _ | ⟨third, _ | ⟨fourth, rest⟩⟩⟩⟩ := operands
    · rfl
    · rfl
    · rfl
    · cases count
    · rfl
  all_goals
    obtain _ | ⟨first, _ | ⟨second, _ | ⟨third, rest⟩⟩⟩ := operands
    · rfl
    · rfl
    · cases count
    · rfl

/-- A check of the number of operands before the form is run makes no difference. -/
theorem IsStandard.runChecked_eq (standard : form.IsStandard) (site : Site)
    (operands : List Operand) : form.runChecked site operands = form.run site operands := by
  rw [runChecked, Arity.check]
  cases count : form.arity.admits operands.length with
  | true => rfl
  | false =>
      rw [standard.run_wrongCount count]
      rfl

/-- A standard form evaluates nothing but its operands. -/
theorem IsStandard.run_congr (standard : form.IsStandard) (f : FrameId)
    (first second : Value → Eval Value) (operands : List Operand) :
    form.run ⟨f, first⟩ operands = form.run ⟨f, second⟩ operands := by
  obtain rfl | rfl | rfl | rfl := standard <;> rfl

theorem IsStandard.outcome_eval {registry : Registry} (standard : form.IsStandard)
    {name : String} (found : registry.forms.find? name = some form) (f : FrameId)
    (exprs : List Value) (s : State) :
    (registry.eval f (.list (.symbol name :: exprs))).outcome s =
      if form.arity.admits exprs.length then
        (form.run (registry.site f) (registry.operands f exprs)).outcome s
      else (.error (.arity form.arity exprs.length (some name)), s) := by
  rw [Registry.eval_list]
  simp only [Registry.apply, found]
  cases count : form.arity.admits exprs.length with
  | true =>
      rw [Registry.applyForm_admitted (by rw [Registry.length_operands, count]), if_pos rfl,
        Registry.site, standard.run_congr f _ (registry.eval f)]
  | false =>
      rw [Registry.applyForm_wrongCount (by rw [Registry.length_operands, count]),
        Registry.length_operands]
      rfl

end SpecialForm

namespace Signature

/-- Arguments that fit the parameters, as a function receives them. -/
inductive Arguments : Signature → Type where
  | nil : Arguments []
  | cons {param params} (first : param.Carrier) (rest : Arguments params) :
      Arguments (param :: params)

namespace Arguments

/-- The value that stands for an argument. -/
def value : (param : Param) → param.Carrier → Value
  | .integer, n => .int n
  | .value, value => value

/-- The values that stand for the arguments. -/
def values : {signature : Signature} → Arguments signature → List Value
  | [], nil => []
  | param :: _, cons first rest => value param first :: rest.values

/-- The result of the function on the arguments. -/
def call : {signature : Signature} → signature.Function → Arguments signature →
    Except Error Value
  | [], result, nil => result
  | _ :: _, function, cons first rest => call (function first) rest

end Arguments

/-- A parameter takes a value: any value, or only integers. -/
def takes : Param → Value → Bool
  | .integer, .int _ => true
  | .integer, _ => false
  | .value, _ => true

/-- The leftmost argument that its parameter does not take. -/
def misfit? (signature : Signature) (args : List Value) : Option Value :=
  ((signature.zip args).find? fun pair => !takes pair.1 pair.2).map Prod.snd

section Conversion

variable {param : Param} {params signature : Signature} {arg got : Value} {args : List Value}

/-- What a parameter takes is converted to an argument that the value stands for. -/
theorem exists_convert_eq_ok (taken : takes param arg = true) :
    ∃ converted, arg = Arguments.value param converted ∧ param.convert arg = .ok converted := by
  cases param with
  | value => exact ⟨arg, rfl, rfl⟩
  | integer =>
      cases arg with
      | int n => exact ⟨n, rfl, rfl⟩
      | _ => cases taken

theorem convert_eq_error (refused : takes param arg = false) :
    param.convert arg = .error (.type (.notIntegerParameter arg)) := by
  cases param with
  | value => cases refused
  | integer =>
      cases arg with
      | int n => cases refused
      | _ => rfl

theorem misfit?_cons (param : Param) (params : Signature) (arg : Value) (args : List Value) :
    misfit? (param :: params) (arg :: args) =
      if takes param arg then misfit? params args else some arg := by
  cases taken : takes param arg <;> simp [misfit?, taken]

theorem apply_cons (function : Function (param :: params))
    (count : (arg :: args).length = (param :: params).length) :
    apply (param :: params) function (arg :: args) count =
      (param.convert arg).bind fun converted =>
        apply params (function converted) args (Nat.succ.inj count) :=
  rfl

/-- A function is not run where an argument does not fit. -/
theorem apply_misfit (function : signature.Function) (count : args.length = signature.length)
    (found : misfit? signature args = some got) :
    apply signature function args count = .error (.type (.notIntegerParameter got)) := by
  induction signature generalizing args with
  | nil => cases found
  | cons param params ih =>
      obtain _ | ⟨arg, args⟩ := args
      · cases count
      rw [apply_cons]
      rw [misfit?_cons] at found
      cases taken : takes param arg with
      | true =>
          obtain ⟨converted, _, ok⟩ := exists_convert_eq_ok taken
          rw [taken, if_pos rfl] at found
          rw [ok]
          exact ih (function converted) (Nat.succ.inj count) found
      | false =>
          rw [taken] at found
          obtain rfl := Option.some.inj found
          rw [convert_eq_error taken]
          rfl

/-- Where every argument fits, the function is run on what they stand for. -/
theorem exists_apply_eq_call (function : signature.Function)
    (count : args.length = signature.length) (fits : misfit? signature args = none) :
    ∃ arguments : Arguments signature, arguments.values = args ∧
      apply signature function args count = arguments.call function := by
  induction signature generalizing args with
  | nil =>
      obtain rfl : args = [] := List.length_eq_zero_iff.mp count
      exact ⟨.nil, rfl, rfl⟩
  | cons param params ih =>
      obtain _ | ⟨arg, args⟩ := args
      · cases count
      rw [apply_cons]
      rw [misfit?_cons] at fits
      cases taken : takes param arg with
      | true =>
          obtain ⟨converted, rfl, ok⟩ := exists_convert_eq_ok taken
          rw [taken, if_pos rfl] at fits
          obtain ⟨rest, rfl, ran⟩ := ih (function converted) (Nat.succ.inj count) fits
          refine ⟨.cons converted rest, rfl, ?_⟩
          rw [ok]
          exact ran
      | false =>
          rw [taken] at fits
          cases fits

end Conversion

end Signature

namespace Primitive

variable {signature : Signature} {args : List Value}

theorem run_ofFunction_wrongCount (function : signature.Function) (f : FrameId)
    (count : args.length ≠ signature.length) :
    (ofFunction signature function).run f args =
      throw (.arity (.exact signature.length) args.length none) :=
  congrArg Eval.ofExcept (dif_neg count)

theorem run_ofFunction (function : signature.Function) (f : FrameId)
    (count : args.length = signature.length) :
    (ofFunction signature function).run f args =
      Eval.ofExcept (signature.apply function args count) :=
  congrArg Eval.ofExcept (dif_pos count)

/-- A check of the number of arguments before a typed function is run makes no
difference. -/
theorem runChecked_ofFunction (signature : Signature) (function : signature.Function)
    (f : FrameId) (args : List Value) :
    (ofFunction signature function).runChecked f args =
      (ofFunction signature function).run f args := by
  rw [runChecked, Arity.check]
  by_cases count : args.length = signature.length
  · have admitted : (ofFunction signature function).arity.admits args.length = true :=
      beq_iff_eq.mpr count
    rw [if_pos admitted]
    rfl
  · have rejected : ¬ (ofFunction signature function).arity.admits args.length = true :=
      fun admitted => count (beq_iff_eq.mp admitted)
    rw [if_neg rejected, run_ofFunction_wrongCount function f count]
    rfl

/-- The standard primitives of fixed arity are made from typed functions. -/
theorem exists_ofFunction_of_find? {name : String} {primitive : Primitive} {n : Nat}
    (found : Registry.standard.primitives.find? name = some primitive)
    (fixed : primitive.arity = .exact n) :
    ∃ signature function, primitive = ofFunction signature function := by
  refine forall_standard (P := fun primitive => primitive.arity = .exact n →
    ∃ signature function, primitive = ofFunction signature function)
    ?car ?cdr ?cons ?compare ?add ?subtract ?multiply found fixed
  case car => exact fun _ => ⟨[.value], Lists.car, rfl⟩
  case cdr => exact fun _ => ⟨[.value], Lists.cdr, rfl⟩
  case cons => exact fun _ => ⟨[.value, .value], Lists.cons, rfl⟩
  case compare => exact fun _ fixed => nomatch fixed
  case add | subtract | multiply => exact fun fixed => nomatch fixed

end Primitive

/-- The two checks of the number of operands agree, for the standard special forms and for
the primitives of typed functions, the standard ones of fixed arity among them. Running
such an operator by itself gives the same outcome and leaves the same state with and
without the check of its registered arity. Evaluating a list that is headed by its name
gives that outcome too: for a form on the operands as they stand, for a primitive on their
values, and if an operand fails, its error as it is. Only an arity error of the operator
itself that names no operator gets the name.

A typed function is run if there are as many arguments as parameters and every argument
can be converted. Otherwise the error is about their number, or about the leftmost argument
that cannot be converted. -/
theorem operand_checks_agree (registry : Registry) :
    ((∀ name form, Registry.standard.forms.find? name = some form → form.IsStandard) ∧
      ∀ form : SpecialForm, form.IsStandard → ∀ f exprs s,
        (form.runChecked (registry.site f) (registry.operands f exprs)).outcome s =
          (form.run (registry.site f) (registry.operands f exprs)).outcome s ∧
        (form.arity.admits exprs.length = false →
          (form.run (registry.site f) (registry.operands f exprs)).outcome s =
            (.error (.arity form.arity exprs.length none), s)) ∧
        ∀ name, registry.forms.find? name = some form →
          (registry.eval f (.list (.symbol name :: exprs))).outcome s =
            if form.arity.admits exprs.length then
              (form.run (registry.site f) (registry.operands f exprs)).outcome s
            else (.error (.arity form.arity exprs.length (some name)), s)) ∧
    (∀ name primitive n, Registry.standard.primitives.find? name = some primitive →
      primitive.arity = .exact n →
        ∃ signature function, primitive = .ofFunction signature function) ∧
    ∀ signature function primitive, primitive = .ofFunction signature function →
      (∀ f args s,
        (primitive.runChecked f args).outcome s = (primitive.run f args).outcome s ∧
        (args.length ≠ signature.length → (primitive.run f args).outcome s =
          (.error (.arity (.exact signature.length) args.length none), s)) ∧
        (args.length = signature.length →
          (∀ got, signature.misfit? args = some got → (primitive.run f args).outcome s =
            (.error (.type (.notIntegerParameter got)), s)) ∧
          (signature.misfit? args = none → ∃ arguments : signature.Arguments,
            arguments.values = args ∧
              (primitive.run f args).outcome s = (arguments.call function, s)))) ∧
      ∀ name, registry.forms.find? name = none →
        registry.primitives.find? name = some primitive → ∀ f exprs s,
          (registry.eval f (.list (.symbol name :: exprs))).outcome s =
            match (registry.evalAll f exprs).outcome s with
            | (.ok args, s') =>
              match (primitive.run f args).outcome s' with
              | (.error (.arity expected got none), s'') =>
                (.error (.arity expected got (some name)), s'')
              | result => result
            | (.error error, s') => (.error error, s') := by
  refine ⟨⟨fun name form => Registry.standard_usesStandardForms name form, ?_⟩,
    fun name primitive n => Primitive.exists_ofFunction_of_find?, ?_⟩
  · intro form standard f exprs s
    refine ⟨?_, ?_, fun name found => standard.outcome_eval found f exprs s⟩
    · rw [standard.runChecked_eq]
    · intro count
      rw [standard.run_wrongCount (by rw [Registry.length_operands, count]),
        Registry.length_operands]
      rfl
  · rintro signature function _ rfl
    constructor
    · intro f args s
      refine ⟨by rw [Primitive.runChecked_ofFunction], fun count => ?_, fun count => ?_⟩
      · rw [Primitive.run_ofFunction_wrongCount function f count]
        rfl
      · rw [Primitive.run_ofFunction function f count, Eval.outcome_ofExcept]
        refine ⟨fun got misfit => by rw [Signature.apply_misfit function count misfit],
          fun fits => ?_⟩
        obtain ⟨arguments, same, ran⟩ := Signature.exists_apply_eq_call function count fits
        exact ⟨arguments, same, by rw [ran]⟩
    · intro name noForm found f exprs s
      rw [Registry.outcome_eval_primitive noForm found]
      simp only [Primitive.runChecked_ofFunction, Eval.outcome_namedBy]

/-- A function of an integer and a value that an embedding program adds. -/
def Primitive.labelled : Primitive :=
  ofFunction [.integer, .value] fun n value => .ok (.list [.int n, value])

/-- Where an operator gets the wrong number of operands, the error has its name, while an
error of an operand that has no name is passed on as it is. Of the arguments of a typed
function the one that does not fit is at fault. -/
theorem operand_checks_agree_labelled :
    let registry := Registry.standard.withPrimitive "label" .labelled
    (registry.eval 0 (.list [.symbol "label", .nil])).outcome .initial =
        (.error (.arity (.exact 2) 1 (some "label")), .initial) ∧
      (∀ f s, (Primitive.labelled.run f [.bool true, .nil]).outcome s =
        (.error (.type (.notIntegerParameter (.bool true))), s)) ∧
      (registry.eval 0 (.list [.symbol "quote"])).outcome .initial =
        (.error (.arity (.exact 1) 0 (some "quote")), .initial) ∧
      (registry.eval 0 (.list [.symbol "define", .symbol "x",
        .list [.closure 0 ["y"] .nil]])).outcome .initial =
          (.error (.arity (.exact 1) 0 none), .initial) := by
  intro registry
  obtain ⟨⟨_, forms⟩, _, functions⟩ := operand_checks_agree registry
  obtain ⟨runs, lists⟩ := functions [.integer, .value] _ .labelled rfl
  refine ⟨?_, ?_, ?_, ?_⟩
  · have args : (registry.evalAll 0 [.nil]).outcome .initial = (.ok [.nil], .initial) := rfl
    rw [lists "label" rfl rfl, args]
    rfl
  · intro f s
    obtain ⟨_, _, converts⟩ := runs f [.bool true, .nil] s
    exact (converts rfl).1 (.bool true) rfl
  · rw [(forms .quote (.inl rfl) 0 [] .initial).2.2 "quote" rfl]
    rfl
  · rw [(forms .define (.inr (.inr (.inl rfl))) 0 _ .initial).2.2 "define" rfl]
    rfl

end DynamicLisp
