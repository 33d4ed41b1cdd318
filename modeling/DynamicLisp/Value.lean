import DynamicLisp.Integer

/-!
# Values

Program text and data have the same form: a value is nil, a boolean, an integer,
a symbol, a list or a closure. Nil is not the empty list, and only the false
boolean is false.

A closure carries parameter names and a body but no environment: its body is
evaluated under the frame of whoever calls it. Closures are told apart by the
identity they received when they were made, so two closures with the same
parameters and body are different values.
-/

namespace DynamicLisp

/-- The identity of a closure. Identities are handed out in increasing order. -/
abbrev ClosureId := Nat

/-- A value of the language, which is also the form of its programs. -/
inductive Value where
  | nil
  | bool (b : Bool)
  | int (n : Integer)
  | symbol (name : String)
  | list (items : List Value)
  | closure (id : ClosureId) (params : List String) (body : Value)
  deriving Inhabited

namespace Value

/-- The name of a value's kind, as error messages give it. -/
def kind : Value → String
  | nil => "nil"
  | bool _ => "boolean"
  | int _ => "integer"
  | symbol _ => "symbol"
  | list _ => "list"
  | closure .. => "closure"

/-- Only the false boolean is false. -/
def isFalse : Value → Bool
  | bool false => true
  | _ => false

/-- Whether a value is a closure. -/
def isClosure : Value → Bool
  | closure .. => true
  | _ => false

/-- The form that a quote mark before `value` abbreviates. -/
def quoted (value : Value) : Value :=
  list [symbol "quote", value]

mutual

/-- Equality as programs see it: closures are the same when they have the same
identity, everything else is compared by its contents. -/
def same : Value → Value → Bool
  | nil, nil => true
  | bool a, bool b => a == b
  | int a, int b => a == b
  | symbol a, symbol b => a == b
  | list as, list bs => sameAll as bs
  | closure a _ _, closure b _ _ => a == b
  | _, _ => false

/-- Equality of lists of values, position by position. -/
def sameAll : List Value → List Value → Bool
  | [], [] => true
  | a :: as, b :: bs => same a b && sameAll as bs
  | _, _ => false

end

end Value

end DynamicLisp
