/-!
# Argument counts
-/

namespace DynamicLisp

/-- The argument counts that an operator accepts. -/
inductive Arity where
  | exact (n : Nat)
  | atLeast (n : Nat)
  | any
  deriving DecidableEq

namespace Arity

/-- Whether a count is accepted. -/
def admits : Arity → Nat → Bool
  | exact n, count => count == n
  | atLeast n, count => n ≤ count
  | any, _ => true

/-- The wording of error messages, which continue with "arguments". -/
def text : Arity → String
  | exact n => "exactly " ++ n.repr
  | atLeast n => "at least " ++ n.repr
  | any => "any number of"

/-- The inspection text, such as `AtLeast(2)`. -/
def inspect : Arity → String
  | exact n => "Exact(" ++ n.repr ++ ")"
  | atLeast n => "AtLeast(" ++ n.repr ++ ")"
  | any => "Any"

end Arity

end DynamicLisp
