import DynamicLisp.Arity
import DynamicLisp.ParseError
import DynamicLisp.Value.Text

/-!
# Errors

An error records its cause: which value stood in the wrong place, which name was
not bound, how many arguments came where others were expected. The wording is
kept apart, in `Error.message`, so that statements about errors never have to
look inside a text.

An arity error may name the operator that refused its arguments. Operators do
not know the name under which they were called, so they raise it without one and
the evaluator adds it with `Error.namedBy`, which never replaces a name.
-/

namespace DynamicLisp

/-- A value of the wrong kind. -/
inductive TypeFault where
  /-- A symbol at the head of a list is bound to something that is no closure. -/
  | notCallable (name : String) (bound : Value)
  /-- An argument of an operator on any number of integers is no integer. -/
  | notInteger (got : Value)
  /-- An argument for an integer parameter is no integer. -/
  | notIntegerParameter (got : Value)
  /-- The argument of a list operator is no list. -/
  | notList (operator : String) (got : Value)
  /-- The tail given to `cons` is neither a list nor nil. -/
  | notListTail (got : Value)
  /-- A reason given by the embedding program. -/
  | other (reason : String)

/-- A special form whose operands do not have the shape it needs. -/
inductive ShapeFault where
  /-- A parameter that is no symbol. -/
  | parameter (form : String) (got : Value)
  /-- The parameters of `lambda` are no list. -/
  | parameters (got : Value)
  /-- The signature of a function definition is empty. -/
  | emptySignature
  /-- The name in the signature of a function definition is no symbol. -/
  | functionName (got : Value)
  /-- The target of a definition is neither a symbol nor a list. -/
  | target (got : Value)

/-- An operation on values of the right kinds that has no result. -/
inductive Failure where
  /-- An exact partial result has no 64-bit form. -/
  | overflow (operation : String)
  /-- A part of the empty list was asked for. -/
  | emptyList (operator : String)
  /-- Evaluation was nested to the last level that the evaluator provides. -/
  | unfinished
  /-- A reason given by the embedding program. -/
  | other (reason : String)

/-- The cause of a failed evaluation. -/
inductive Error where
  | parse (error : ParseError)
  | unbound (name : String)
  | arity (expected : Arity) (got : Nat) (operator : Option String)
  | type (fault : TypeFault)
  | call (head : Value)
  | stackLimit (depth : Nat)
  | structural (fault : ShapeFault)
  | eval (failure : Failure)

instance : Inhabited Error := ⟨.eval .unfinished⟩

/-- The number of frames that a chain may have. -/
def maxDepth : Nat := 1000

/-- The wording of a type fault. -/
def TypeFault.message : TypeFault → String
  | notCallable name bound => "'" ++ name ++ "' is not callable: bound to " ++ bound.mention
  | notInteger got => "expected integer, got " ++ got.mention
  | notIntegerParameter got => "expected integer, got " ++ got.kind
  | notList operator got => operator ++ " requires a list, got " ++ got.mention
  | notListTail got => "cons requires a list as second argument, got " ++ got.mention
  | other reason => reason

/-- The wording of a shape fault. -/
def ShapeFault.message : ShapeFault → String
  | parameter form got => form ++ ": parameter must be a symbol, got " ++ got.mention
  | parameters got => "lambda: parameters must be a list, got " ++ got.mention
  | emptySignature => "define: function signature must not be empty"
  | functionName got => "define: function name must be a symbol, got " ++ got.mention
  | target got => "define: first argument must be a symbol or a list, got " ++ got.mention

/-- The wording of a failure. -/
def Failure.message : Failure → String
  | overflow operation => "Integer overflow in " ++ operation
  | emptyList operator => operator ++ " of empty list"
  | unfinished => "evaluation is nested too deeply"
  | other reason => reason

namespace Error

/-- The text of an error. -/
def message : Error → String
  | parse error => "ParseError: " ++ error.text
  | unbound name => "Unbound symbol: " ++ name
  | arity expected got operator =>
    "ArityError: " ++ (match operator with | none => "" | some name => name ++ ": ") ++
      "expected " ++ expected.text ++ " arguments, got " ++ got.repr
  | type fault => "Type error: " ++ fault.message
  | call head => "Call error: head of list is not callable: " ++ head.mention
  | stackLimit depth =>
    "Stack limit: environment depth " ++ depth.repr ++ " reached (max: " ++ maxDepth.repr ++ ")"
  | structural fault => "Structural error: " ++ fault.message
  | eval failure => "EvaluationError: " ++ failure.message

/-- Names the operator in an arity error that does not name one yet. -/
def namedBy (name : String) : Error → Error
  | arity expected got none => arity expected got (some name)
  | error => error

/-- Names the operator where it has a name. -/
def namedBy? : Option String → Error → Error
  | some name, error => error.namedBy name
  | none, error => error

end Error

/-- Accepts a count or raises an arity error that names no operator. -/
def Arity.check (arity : Arity) (count : Nat) : Except Error Unit :=
  if arity.admits count then .ok () else .error (.arity arity count none)

end DynamicLisp
