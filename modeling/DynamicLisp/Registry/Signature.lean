import DynamicLisp.Registry

/-!
# Primitives from typed functions

A function on integers and values becomes a primitive by its signature, the list
of the kinds of its parameters. The primitive checks the number of arguments,
then converts them from left to right, and runs the function only when every
argument has the right kind. A function of any number of arguments takes them as
one list instead. What is made from a function is a primitive without effects.
-/

namespace DynamicLisp

/-- The kind of a parameter. -/
inductive Param where
  | integer
  | value

namespace Param

/-- What a function receives for a parameter. -/
abbrev Carrier : Param → Type
  | integer => Integer
  | value => Value

/-- Converts an argument. Every value fits a parameter that takes any value. -/
def convert : (param : Param) → Value → Except Error param.Carrier
  | integer, .int n => .ok n
  | integer, got => .error (.type (.notIntegerParameter got))
  | value, got => .ok got

end Param

/-- The parameters of a function. -/
abbrev Signature := List Param

namespace Signature

/-- A function with the given parameters. -/
abbrev Function : Signature → Type
  | [] => Except Error Value
  | param :: params => param.Carrier → Function params

/-- Converts arguments, as many as there are parameters, from left to right and
passes them to the function. -/
def apply : (signature : Signature) → signature.Function → (args : List Value) →
    args.length = signature.length → Except Error Value
  | [], result, _, _ => result
  | param :: params, function, arg :: args, h => do
    let converted ← param.convert arg
    apply params (function converted) args (by simpa using h)
  | _ :: _, _, [], h => nomatch h

end Signature

namespace Primitive

/-- The primitive of a function of any number of values. -/
def ofValues (arity : Arity) (function : List Value → Except Error Value) : Primitive where
  arity := arity
  run _ args := Eval.ofExcept (function args)

/-- The primitive of a function with a fixed number of parameters. -/
def ofFunction (signature : Signature) (function : signature.Function) : Primitive :=
  ofValues (.exact signature.length) fun args =>
    if h : args.length = signature.length then signature.apply function args h
    else .error (.arity (.exact signature.length) args.length none)

/-- The integers among the arguments, if all of them are integers; otherwise the
first that is not is at fault. -/
def integers : List Value → Except Error (List Integer)
  | [] => .ok []
  | .int n :: args => (n :: ·) <$> integers args
  | got :: _ => .error (.type (.notInteger got))

/-- The primitive of a function of any number of integers. -/
def ofIntegers (arity : Arity) (function : List Integer → Except Error Value) : Primitive :=
  ofValues arity fun args => do function (← integers args)

end Primitive

end DynamicLisp
