import DynamicLisp.Evaluator
import DynamicLisp.Proofs.Store.Frames
import DynamicLisp.Registry.Standard

/-!
# Evaluation as a relation

The evaluator is a function that is given a number of levels. The rules below say
what evaluation is without levels: an outcome stands in the relation when a finite
derivation leads to it, so a computation that would never end has none.

What the head of a list stands for is settled first, before any operand is looked
at. The premises of a rule are about the items of the list in the same frame, in
the order in which they are evaluated, or about the body of a closure in a frame
that was opened for the call. One relation covers both expressions and sequences
of operands, so that a property of evaluation is proved by one induction.

A primitive is run as it stands, and what it does to the state is up to it. The rules
only ask that it act on frames as everything else does, by opening new ones and by
binding names. Nothing is derived for a primitive that does anything else to them.
-/

namespace DynamicLisp

/-- What the head of a list stands for. -/
inductive Operator where
  | form (name : String) (form : SpecialForm)
  | primitive (name : String) (primitive : Primitive)
  /-- A closure, with the name under which it was found. -/
  | closure (name : Option String) (params : List String) (body : Value)

/-- All operators but special forms get the values of their operands. -/
def Operator.isEager : Operator → Bool
  | form .. => false
  | _ => true

namespace Registry

/-- What the head of a list stands for as seen from a frame, or the error it
gives. Nothing is evaluated for this. -/
def resolve (registry : Registry) (store : Store) (f : FrameId) : Value → Except Error Operator
  | .symbol name =>
    match registry.forms.find? name with
    | some form => .ok (.form name form)
    | none =>
      match registry.primitives.find? name with
      | some primitive => .ok (.primitive name primitive)
      | none =>
        match store.get? f name with
        | some (.closure _ params body) => .ok (.closure (some name) params body)
        | some bound => .error (.type (.notCallable name bound))
        | none => .error (.unbound name)
  | .closure _ params body => .ok (.closure none params body)
  | head => .error (.call head)

/-- The ways in which the head of a list is resolved. -/
inductive Resolution (registry : Registry) (store : Store) (f : FrameId) :
    Value → Except Error Operator → Prop where
  | form {name form} (found : registry.forms.find? name = some form) :
      Resolution registry store f (.symbol name) (.ok (.form name form))
  | primitive {name primitive} (noForm : registry.forms.find? name = none)
      (found : registry.primitives.find? name = some primitive) :
      Resolution registry store f (.symbol name) (.ok (.primitive name primitive))
  | bound {name id params body} (noForm : registry.forms.find? name = none)
      (noPrimitive : registry.primitives.find? name = none)
      (found : store.get? f name = some (.closure id params body)) :
      Resolution registry store f (.symbol name) (.ok (.closure (some name) params body))
  | notCallable {name value} (noForm : registry.forms.find? name = none)
      (noPrimitive : registry.primitives.find? name = none)
      (found : store.get? f name = some value) (notClosure : value.isClosure = false) :
      Resolution registry store f (.symbol name) (.error (.type (.notCallable name value)))
  | unbound {name} (noForm : registry.forms.find? name = none)
      (noPrimitive : registry.primitives.find? name = none)
      (missing : store.get? f name = none) :
      Resolution registry store f (.symbol name) (.error (.unbound name))
  | closure {id params body} :
      Resolution registry store f (.closure id params body) (.ok (.closure none params body))
  | other {head} (notSymbol : ∀ name, head ≠ .symbol name) (notClosure : head.isClosure = false) :
      Resolution registry store f head (.error (.call head))

theorem resolution (registry : Registry) (store : Store) (f : FrameId) (head : Value) :
    registry.Resolution store f head (registry.resolve store f head) := by
  cases head with
  | symbol name =>
      cases noForm : registry.forms.find? name with
      | some form =>
          simp only [resolve, noForm]
          exact .form noForm
      | none =>
          cases noPrimitive : registry.primitives.find? name with
          | some primitive =>
              simp only [resolve, noForm, noPrimitive]
              exact .primitive noForm noPrimitive
          | none =>
              cases found : store.get? f name with
              | none =>
                  simp only [resolve, noForm, noPrimitive, found]
                  exact .unbound noForm noPrimitive found
              | some value =>
                  simp only [resolve, noForm, noPrimitive, found]
                  cases value with
                  | closure id params body => exact .bound noForm noPrimitive found
                  | _ => exact .notCallable noForm noPrimitive found rfl
  | closure id params body => exact .closure
  | _ => exact .other (fun _ same => nomatch same) rfl

section Found

variable {registry : Registry} {store : Store} {f : FrameId} {head : Value} {name : String}

theorem find?_form_of_resolve {form : SpecialForm}
    (resolved : registry.resolve store f head = .ok (.form name form)) :
    registry.forms.find? name = some form := by
  have resolution := registry.resolution store f head
  rw [resolved] at resolution
  cases resolution with
  | form found => exact found

theorem find?_primitive_of_resolve {primitive : Primitive}
    (resolved : registry.resolve store f head = .ok (.primitive name primitive)) :
    registry.primitives.find? name = some primitive := by
  have resolution := registry.resolution store f head
  rw [resolved] at resolution
  cases resolution with
  | primitive _ found => exact found

end Found

/-- Every special form of the registry is one of the four standard ones, whatever
its name. Nothing is said about primitives. -/
def UsesStandardForms (registry : Registry) : Prop :=
  ∀ name form, registry.forms.find? name = some form →
    form = .quote ∨ form = .choose ∨ form = .define ∨ form = .lambda

theorem UsesStandardForms.withPrimitive {registry : Registry}
    (standard : registry.UsesStandardForms) (name : String) (primitive : Primitive) :
    (registry.withPrimitive name primitive).UsesStandardForms :=
  standard

end Registry

namespace SpecialForms

/-- What a definition binds. -/
inductive Target where
  | value (name : String)
  | function (name : String) (params : List String)

/-- The target of a definition, or what is wrong with its shape. -/
def target : Value → Except Error Target
  | .symbol name => .ok (.value name)
  | .list (.symbol name :: params) => (paramNames "define" params).map (Target.function name)
  | .list [] => .error (.structural .emptySignature)
  | .list (got :: _) => .error (.structural (.functionName got))
  | got => .error (.structural (.target got))

/-- The parameters of an abstraction, or what is wrong with their shape. -/
def parameters : Value → Except Error (List String)
  | .list names => paramNames "lambda" names
  | got => .error (.structural (.parameters got))

end SpecialForms

/-- Whether an expression means itself: it is neither a symbol nor a list with a
head. -/
def Value.meansItself : Value → Bool
  | .symbol _ => false
  | .list (_ :: _) => false
  | _ => true

namespace State

/-- The state after a name was bound to a value in a frame. -/
def define (s : State) (f : FrameId) (name : String) (value : Value) : State :=
  (s.record (.define name (s.store.depth f))).set f name value

/-- The state after a name was bound to a new closure in a frame. -/
def defineFunction (s : State) (f : FrameId) (name : String) (params : List String)
    (body : Value) : State :=
  (s.nextClosure.record (.defineFunction name (s.store.depth f))).set f name
    (.closure s.supply params body)

/-- The frame of a call from `f`. -/
def callee (s : State) (f : FrameId) (params : List String) (args : List Value) : Frame :=
  ⟨.ofList (params.zip args), some f, s.store.depth f + 1⟩

/-- The state in which the body of a called closure is evaluated. The frame of
the call is the last of the store. -/
def enter (s : State) (f : FrameId) (name : Option String) (params : List String)
    (args : List Value) : State :=
  (s.push (s.callee f params args)).record (.call name params.length (s.store.depth f + 1))

end State

/-- What is to be evaluated: an expression, or operands whose values are collected
in a list. -/
inductive Task where
  | expr (expr : Value)
  | operands (exprs : List Value)

open SpecialForms in
/-- `Evaluates registry f task s outcome s'` says that evaluating `task` in frame
`f` from state `s` ends with `outcome` in state `s'`. -/
inductive Evaluates (registry : Registry) :
    FrameId → Task → State → Except Error Value → State → Prop where
  | bound {f name value s} (found : s.store.get? f name = some value) :
      Evaluates registry f (.expr (.symbol name)) s (.ok value) s
  | unbound {f name s} (missing : s.store.get? f name = none) :
      Evaluates registry f (.expr (.symbol name)) s (.error (.unbound name)) s
  | itself {f value s} (constant : value.meansItself = true) :
      Evaluates registry f (.expr value) s (.ok value) s
  | unresolved {f head operands error s}
      (resolved : registry.resolve s.store f head = .error error) :
      Evaluates registry f (.expr (.list (head :: operands))) s (.error error) s
  | wrongCount {f head operands name form s}
      (resolved : registry.resolve s.store f head = .ok (.form name form))
      (count : form.arity.admits operands.length = false) :
      Evaluates registry f (.expr (.list (head :: operands))) s
        (.error (.arity form.arity operands.length (some name))) s
  | quote {f head expr name s}
      (resolved : registry.resolve s.store f head = .ok (.form name .quote)) :
      Evaluates registry f (.expr (.list [head, expr])) s (.ok expr) s
  | testFails {f head test yes no name error s s₁}
      (resolved : registry.resolve s.store f head = .ok (.form name .choose))
      (tested : Evaluates registry f (.expr test) s (.error error) s₁) :
      Evaluates registry f (.expr (.list [head, test, yes, no])) s (.error error) s₁
  | choose {f head test yes no name value outcome s s₁ s₂}
      (resolved : registry.resolve s.store f head = .ok (.form name .choose))
      (tested : Evaluates registry f (.expr test) s (.ok value) s₁)
      (chosen : Evaluates registry f (.expr (if value.isFalse then no else yes)) s₁ outcome s₂) :
      Evaluates registry f (.expr (.list [head, test, yes, no])) s outcome s₂
  | malformedTarget {f head signature body name error s}
      (resolved : registry.resolve s.store f head = .ok (.form name .define))
      (shape : target signature = .error error) :
      Evaluates registry f (.expr (.list [head, signature, body])) s (.error error) s
  | definitionFails {f head signature expr name bound error s s₁}
      (resolved : registry.resolve s.store f head = .ok (.form name .define))
      (shape : target signature = .ok (.value bound))
      (evaluated : Evaluates registry f (.expr expr) s (.error error) s₁) :
      Evaluates registry f (.expr (.list [head, signature, expr])) s (.error error) s₁
  | defineValue {f head signature expr name bound value s s₁}
      (resolved : registry.resolve s.store f head = .ok (.form name .define))
      (shape : target signature = .ok (.value bound))
      (evaluated : Evaluates registry f (.expr expr) s (.ok value) s₁) :
      Evaluates registry f (.expr (.list [head, signature, expr])) s (.ok (.symbol bound))
        (s₁.define f bound value)
  | defineFunction {f head signature body name bound params s}
      (resolved : registry.resolve s.store f head = .ok (.form name .define))
      (shape : target signature = .ok (.function bound params)) :
      Evaluates registry f (.expr (.list [head, signature, body])) s
        (.ok (.closure s.supply params body)) (s.defineFunction f bound params body)
  | malformedParameters {f head names body name error s}
      (resolved : registry.resolve s.store f head = .ok (.form name .lambda))
      (shape : parameters names = .error error) :
      Evaluates registry f (.expr (.list [head, names, body])) s (.error error) s
  | lambda {f head names body name params s}
      (resolved : registry.resolve s.store f head = .ok (.form name .lambda))
      (shape : parameters names = .ok params) :
      Evaluates registry f (.expr (.list [head, names, body])) s
        (.ok (.closure s.supply params body)) s.nextClosure
  | operandFails {f head operands operator error s s₁}
      (resolved : registry.resolve s.store f head = .ok operator)
      (eager : operator.isEager = true)
      (evaluated : Evaluates registry f (.operands operands) s (.error error) s₁) :
      Evaluates registry f (.expr (.list (head :: operands))) s (.error error) s₁
  | primitive {f head operands name primitive args result s s₁ s₂}
      (resolved : registry.resolve s.store f head = .ok (.primitive name primitive))
      (evaluated : Evaluates registry f (.operands operands) s (.ok (.list args)) s₁)
      (ran : (primitive.runChecked f args).outcome s₁ = (result, s₂))
      (grows : s₁.store.Grows s₂.store) :
      Evaluates registry f (.expr (.list (head :: operands))) s
        (result.mapError (Error.namedBy name)) s₂
  | callCount {f head operands name params body args s s₁}
      (resolved : registry.resolve s.store f head = .ok (.closure name params body))
      (evaluated : Evaluates registry f (.operands operands) s (.ok (.list args)) s₁)
      (count : params.length ≠ args.length) :
      Evaluates registry f (.expr (.list (head :: operands))) s
        (.error (.arity (.exact params.length) args.length name)) s₁
  | callTooDeep {f head operands name params body args s s₁}
      (resolved : registry.resolve s.store f head = .ok (.closure name params body))
      (evaluated : Evaluates registry f (.operands operands) s (.ok (.list args)) s₁)
      (count : params.length = args.length) (deep : maxDepth ≤ s₁.store.depth f + 1) :
      Evaluates registry f (.expr (.list (head :: operands))) s
        (.error (.stackLimit (s₁.store.depth f + 1)))
        (s₁.record (.refused (s₁.store.depth f + 1)))
  | call {f head operands name params body args outcome s s₁ s₂}
      (resolved : registry.resolve s.store f head = .ok (.closure name params body))
      (evaluated : Evaluates registry f (.operands operands) s (.ok (.list args)) s₁)
      (count : params.length = args.length) (shallow : s₁.store.depth f + 1 < maxDepth)
      (ran : Evaluates registry s₁.store.size (.expr body) (s₁.enter f name params args)
        outcome s₂) :
      Evaluates registry f (.expr (.list (head :: operands))) s outcome s₂
  | noOperands {f s} : Evaluates registry f (.operands []) s (.ok (.list [])) s
  | firstFails {f expr exprs error s s₁}
      (first : Evaluates registry f (.expr expr) s (.error error) s₁) :
      Evaluates registry f (.operands (expr :: exprs)) s (.error error) s₁
  | laterFails {f expr exprs value error s s₁ s₂}
      (first : Evaluates registry f (.expr expr) s (.ok value) s₁)
      (later : Evaluates registry f (.operands exprs) s₁ (.error error) s₂) :
      Evaluates registry f (.operands (expr :: exprs)) s (.error error) s₂
  | operands {f expr exprs value values s s₁ s₂}
      (first : Evaluates registry f (.expr expr) s (.ok value) s₁)
      (later : Evaluates registry f (.operands exprs) s₁ (.ok (.list values)) s₂) :
      Evaluates registry f (.operands (expr :: exprs)) s (.ok (.list (value :: values))) s₂

end DynamicLisp
