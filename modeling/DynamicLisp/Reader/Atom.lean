import DynamicLisp.Value

/-!
# Atoms

An atom is an integer when it is a run of decimal digits, possibly after one
sign, whose value has a 64-bit form. Any other atom is a symbol, so a number
that is too large is a symbol too.
-/

namespace DynamicLisp.Atom

/-- The value of a run of decimal digits. -/
def digitsValue (digits : List Char) : Nat :=
  digits.foldl (fun value c => 10 * value + (c.toNat - '0'.toNat)) 0

/-- The exact integer that one or more decimal digits stand for. -/
def unsigned? (digits : List Char) : Option Nat :=
  if digits ≠ [] ∧ digits.all Char.isDigit then some (digitsValue digits) else none

/-- The exact integer that an atom stands for, if it is an integer literal. -/
def literal? : List Char → Option Int
  | '+' :: digits => (unsigned? digits).map fun n : Nat => (n : Int)
  | '-' :: digits => (unsigned? digits).map fun n : Nat => -(n : Int)
  | digits => (unsigned? digits).map fun n : Nat => (n : Int)

/-- The integer that an atom stands for, if it is a literal in range. -/
def integer? (token : List Char) : Option Integer :=
  (literal? token).bind Integer.ofInt?

/-- The value of an atom. -/
def value (token : List Char) : Value :=
  match integer? token with
  | some n => .int n
  | none => .symbol (String.ofList token)

end DynamicLisp.Atom
