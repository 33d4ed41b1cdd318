import DynamicLisp.Proofs.Evaluation.Rules

/-!
# The flat interpreter

A second interpreter for the language of the standard registry, without a store.
It carries one table of bindings, which a definition replaces by a new table, and
is given the depth at which it evaluates. A call evaluates the body of the closure
one deeper, with the table of the caller overridden by the arguments, and forgets
the table that the body ends with. Only the supply of closure identities is carried
out of a call.
-/

namespace DynamicLisp.Flat

/-- All bindings in one table, and the identity of the next closure. -/
structure Scope where
  bindings : Table Value
  supply : ClosureId

namespace Scope

def define (scope : Scope) (name : String) (value : Value) : Scope :=
  ⟨scope.bindings.insert name value, scope.supply⟩

def nextClosure (scope : Scope) : Scope :=
  ⟨scope.bindings, scope.supply + 1⟩

/-- The scope of a body. Of parameters with one name the last one counts. -/
def enter (scope : Scope) (params : List String) (args : List Value) : Scope :=
  ⟨scope.bindings.insertAll (params.zip args), scope.supply⟩

/-- The scope of the caller after a call that ended in `callee`. -/
def leave (scope callee : Scope) : Scope :=
  ⟨scope.bindings, callee.supply⟩

def lookup (scope : Scope) (name : String) : Except Error Value :=
  match scope.bindings.find? name with
  | some value => .ok value
  | none => .error (.unbound name)

/-- The state that a primitive is given: a single frame. -/
def state (scope : Scope) (depth : Nat) : State :=
  ⟨⟨#[⟨scope.bindings, none, depth⟩]⟩, scope.supply, #[]⟩

end Scope

/-- The words that start a special form. -/
inductive Keyword where
  | quote
  | choose
  | define
  | lambda

namespace Keyword

def name : Keyword → String
  | quote => "quote"
  | choose => "if"
  | define => "define"
  | lambda => "lambda"

/-- The number of operands after the word. -/
def operandCount : Keyword → Nat
  | quote => 1
  | choose => 3
  | define => 2
  | lambda => 2

/-- The word that a head is, if it is one. -/
def ofHead? : Value → Option Keyword
  | .symbol "quote" => some quote
  | .symbol "if" => some choose
  | .symbol "define" => some define
  | .symbol "lambda" => some lambda
  | _ => none

end Keyword

/-- What can be called with values. -/
inductive Callee where
  | primitive (name : String) (primitive : Primitive)
  /-- A closure, with the name under which it was found. -/
  | closure (name : Option String) (params : List String) (body : Value)

/-- What a head that is no keyword stands for. Primitives come before bindings. -/
def Scope.callee (scope : Scope) : Value → Except Error Callee
  | .symbol name =>
    match Registry.standard.primitives.find? name with
    | some primitive => .ok (.primitive name primitive)
    | none =>
      match scope.bindings.find? name with
      | some (.closure _ params body) => .ok (.closure (some name) params body)
      | some bound => .error (.type (.notCallable name bound))
      | none => .error (.unbound name)
  | .closure _ params body => .ok (.closure none params body)
  | head => .error (.call head)

mutual

/-- Evaluates an expression. The scope afterwards is given on success and on
error alike. -/
def eval (depth : Nat) (scope : Scope) : Value → Except Error Value × Scope
  | .symbol name => (scope.lookup name, scope)
  | .list (head :: operands) =>
    match Keyword.ofHead? head, operands with
    | some .quote, [expr] => (.ok expr, scope)
    | some .choose, [test, yes, no] =>
      match eval depth scope test with
      | (.ok value, scope) => if value.isFalse then eval depth scope no else eval depth scope yes
      | failed => failed
    | some .define, [signature, body] =>
      match SpecialForms.target signature with
      | .ok (.value name) =>
        match eval depth scope body with
        | (.ok value, scope) => (.ok (.symbol name), scope.define name value)
        | failed => failed
      | .ok (.function name params) =>
        let closure := .closure scope.supply params body
        (.ok closure, scope.nextClosure.define name closure)
      | .error error => (.error error, scope)
    | some .lambda, [names, body] =>
      match SpecialForms.parameters names with
      | .ok params => (.ok (.closure scope.supply params body), scope.nextClosure)
      | .error error => (.error error, scope)
    | some word, operands =>
      (.error (.arity (.exact word.operandCount) operands.length (some word.name)), scope)
    | none, operands =>
      match scope.callee head with
      | .ok callee =>
        match evalAll depth scope operands with
        | (.ok args, scope) => call depth scope callee args
        | (.error error, scope) => (.error error, scope)
      | .error error => (.error error, scope)
  | value => (.ok value, scope)
termination_by expr => (maxDepth - depth, sizeOf expr)

/-- Evaluates expressions from left to right, up to the first that fails. -/
def evalAll (depth : Nat) (scope : Scope) :
    List Value → Except Error (List Value) × Scope
  | [] => (.ok [], scope)
  | expr :: exprs =>
    match eval depth scope expr with
    | (.ok value, scope) =>
      match evalAll depth scope exprs with
      | (.ok values, scope) => (.ok (value :: values), scope)
      | failed => failed
    | (.error error, scope) => (.error error, scope)
termination_by exprs => (maxDepth - depth, sizeOf exprs)

/-- Calls with values. Of a primitive only the result counts. The number of arguments
of a closure is checked before the depth of its body. -/
def call (depth : Nat) (scope : Scope) : Callee → List Value → Except Error Value × Scope
  | .primitive name primitive, args =>
    (((primitive.runChecked 0 args).outcome (scope.state depth)).1.mapError (Error.namedBy name),
      scope)
  | .closure name params body, args =>
    if params.length = args.length then
      if depth + 1 < maxDepth then
        match eval (depth + 1) (scope.enter params args) body with
        | (outcome, callee) => (outcome, scope.leave callee)
      else (.error (.stackLimit (depth + 1)), scope)
    else (.error (.arity (.exact params.length) args.length name), scope)
termination_by (maxDepth - depth, 0)

end

end DynamicLisp.Flat
