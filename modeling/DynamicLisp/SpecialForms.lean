import DynamicLisp.Registry

/-!
# The standard special forms

Quotation, choice, definition and abstraction. Each checks the number and the
shape of its operands itself, so that it behaves in the same way whether or not
the number was checked before.
-/

namespace DynamicLisp.SpecialForms

/-- The names of parameters, all of which must be symbols. -/
def paramNames (form : String) : List Value → Except Error (List String)
  | [] => .ok []
  | .symbol name :: params => (name :: ·) <$> paramNames form params
  | got :: _ => .error (.structural (.parameter form got))

/-- The error for a wrong number of operands. -/
def wrongCount {α : Type} (expected : Nat) (operands : List Operand) : Eval α :=
  throw (.arity (.exact expected) operands.length none)

/-- `(quote x)` is `x`, unevaluated. -/
def quote : List Operand → Eval Value
  | [operand] => pure operand.expr
  | operands => wrongCount 1 operands

/-- `(if test yes no)` evaluates `no` when the test is false and `yes` otherwise. -/
def choose : List Operand → Eval Value
  | [test, yes, no] => do
    if (← test.eval).isFalse then no.eval else yes.eval
  | operands => wrongCount 3 operands

/-- Binds a name to the value of an operand. -/
def defineValue (f : FrameId) (name : String) (operand : Operand) : Eval Value := do
  let value ← operand.eval
  Eval.record (.define name (← Eval.depth f))
  Eval.assign f name value
  return .symbol name

/-- Binds a name to a new closure with the given body. -/
def defineFunction (f : FrameId) (name : String) (params : List Value) (body : Value) :
    Eval Value := do
  let closure ← Eval.newClosure (← Eval.ofExcept (paramNames "define" params)) body
  Eval.record (.defineFunction name (← Eval.depth f))
  Eval.assign f name closure
  return closure

/-- `(define name expr)` binds a value and returns the name, and
`(define (name params...) body)` binds a closure and returns it. Both write the
frame of the form and no other. -/
def define (f : FrameId) : List Operand → Eval Value
  | [target, operand] =>
    match target.expr with
    | .symbol name => defineValue f name operand
    | .list (.symbol name :: params) => defineFunction f name params operand.expr
    | .list [] => throw (.structural .emptySignature)
    | .list (got :: _) => throw (.structural (.functionName got))
    | got => throw (.structural (.target got))
  | operands => wrongCount 2 operands

/-- `(lambda (params...) body)` is a new closure. -/
def lambda : List Operand → Eval Value
  | [params, body] =>
    match params.expr with
    | .list names => do
      Eval.newClosure (← Eval.ofExcept (paramNames "lambda" names)) body.expr
    | got => throw (.structural (.parameters got))
  | operands => wrongCount 2 operands

end DynamicLisp.SpecialForms
