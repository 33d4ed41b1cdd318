import DynamicLisp.Registry

/-!
# Evaluation

A symbol means what the chain of frames says, a list that is not empty applies
its head to its operands, and every other value means itself.

Evaluation of an expression goes down its operands; that part is recursion on the
expression. It leaves the expression in two places: a call goes on with the body
of a closure, and a special form may go on with an expression it has computed.
These steps lead one level in. `evalWithin` provides a number of levels and fails
when they are used up.

A call opens a frame one deeper than the frame it is made from, and a frame that
would be too deep is refused, so the calls inside one another are fewer than
`maxDepth`. Only special forms that evaluate computed expressions can use up the
levels that `eval` provides.
-/

namespace DynamicLisp

/-- Evaluates an expression in a frame, one level further in. -/
abbrev Inner := FrameId → Value → Eval Value

/-- Calls a closure from a frame: opens a frame for the arguments under it and
evaluates the body there. If the number of arguments is wrong, the error carries
the name under which the closure was called. Errors of the body are not touched. -/
def callClosure (inner : Inner) (f : FrameId) (name : Option String) (params : List String)
    (body : Value) (args : List Value) : Eval Value := do
  let frame ← Eval.mapError (Error.namedBy? name) (Eval.openFrame params args (some f))
  Eval.record (.call name params.length (← Eval.depth frame))
  inner frame body

namespace Registry

/-- Applies a special form that was found under a name. -/
def applyForm (inner : Inner) (f : FrameId) (name : String) (form : SpecialForm)
    (operands : List Operand) : Eval Value := do
  Eval.ofExcept ((form.arity.check operands.length).mapError (Error.namedBy name))
  form.run ⟨f, inner f⟩ operands

/-- Applies a primitive that was found under a name. Its operands are evaluated
before they are counted. -/
def applyPrimitive (f : FrameId) (name : String) (primitive : Primitive)
    (operands : List Operand) : Eval Value := do
  let args ← Operand.evalAll operands
  Eval.mapError (Error.namedBy name) (primitive.runChecked f args)

/-- Applies what a name is bound to. The binding is looked up before the operands
are evaluated. -/
def applyBound (inner : Inner) (f : FrameId) (name : String) (operands : List Operand) :
    Eval Value := do
  match ← Eval.lookup f name with
  | .closure _ params body =>
    callClosure inner f (some name) params body (← Operand.evalAll operands)
  | bound => throw (.type (.notCallable name bound))

/-- Applies the head of a list to its operands. Special forms come before
primitives, and both before bindings. -/
def apply (registry : Registry) (inner : Inner) (f : FrameId) (head : Value)
    (operands : List Operand) : Eval Value :=
  match head with
  | .symbol name =>
    match registry.forms.find? name with
    | some form => applyForm inner f name form operands
    | none =>
      match registry.primitives.find? name with
      | some primitive => applyPrimitive f name primitive operands
      | none => applyBound inner f name operands
  | .closure _ params body => do
    callClosure inner f none params body (← Operand.evalAll operands)
  | head => throw (.call head)

mutual

/-- Evaluates an expression in a frame, given the evaluation one level in. -/
def evalWith (registry : Registry) (inner : Inner) (f : FrameId) : Value → Eval Value
  | .symbol name => Eval.lookup f name
  | .list (head :: operands) =>
    registry.apply inner f head (registry.operandsWith inner f operands)
  | value => pure value
termination_by structural expr => expr

/-- The operands of a list, each with its evaluation. -/
def operandsWith (registry : Registry) (inner : Inner) (f : FrameId) : List Value → List Operand
  | [] => []
  | expr :: exprs =>
    ⟨expr, registry.evalWith inner f expr⟩ :: registry.operandsWith inner f exprs
termination_by structural exprs => exprs

end

/-- Evaluates an expression in a frame, with so many levels for what lies
outside the expression. -/
def evalWithin (registry : Registry) : Nat → Inner
  | 0 => registry.evalWith fun _ _ => throw (.eval .unfinished)
  | levels + 1 => registry.evalWith (evalWithin registry levels)

/-- The number of levels that evaluation provides. It is far above `maxDepth`,
to leave room for special forms that evaluate what they compute. -/
def levels : Nat := 1000000

/-- Evaluates an expression in a frame. -/
def eval (registry : Registry) : Inner :=
  registry.evalWithin levels

/-- Operands, each with its evaluation in a frame. -/
def operands (registry : Registry) (f : FrameId) (exprs : List Value) : List Operand :=
  exprs.map fun expr => ⟨expr, registry.eval f expr⟩

/-- Evaluates expressions from left to right, up to the first that fails. -/
def evalAll (registry : Registry) (f : FrameId) (exprs : List Value) : Eval (List Value) :=
  Operand.evalAll (registry.operands f exprs)

/-- Calls a closure on arguments that are already values. -/
def call (registry : Registry) (f : FrameId) (params : List String) (body : Value)
    (args : List Value) : Eval Value :=
  callClosure registry.eval f none params body args

/-- The site of a special form that is run by itself. -/
def site (registry : Registry) (f : FrameId) : Site :=
  ⟨f, registry.eval f⟩

end Registry

end DynamicLisp
