import DynamicLisp.Registry.Signature

/-!
# Arithmetic

Sums, differences and products of any number of integers. Partial results are
taken from left to right and each must have a 64-bit form, even when a later
operand would bring the result back into range. That every operand is an integer
is checked before anything is added up.
-/

namespace DynamicLisp.Arithmetic

/-- Combines integers from left to right, starting from `start`. Each partial
result is exact or the operation fails. -/
def fold (operation : String) (combine : Int → Int → Int) :
    (start : Integer) → List Integer → Except Error Value
  | result, [] => .ok (.int result)
  | result, n :: ns =>
    match Integer.ofInt? (combine result.toInt n.toInt) with
    | some next => fold operation combine next ns
    | none => .error (.eval (.overflow operation))

/-- The sum; without operands it is 0. -/
def add (ns : List Integer) : Except Error Value :=
  fold "addition" (· + ·) 0 ns

/-- The first operand minus each later one. A single operand is returned as it
is, and without operands the result is 0. -/
def subtract : List Integer → Except Error Value
  | [] => .ok (.int 0)
  | n :: ns => fold "subtraction" (· - ·) n ns

/-- The product; without operands it is 1. -/
def multiply (ns : List Integer) : Except Error Value :=
  fold "multiplication" (· * ·) 1 ns

end DynamicLisp.Arithmetic
