import DynamicLisp.Value

/-!
# Comparisons

A comparison of several values is true when each stands in the relation to the
next. Values of other kinds than integers never stand in any of the relations,
and comparing them is no error.
-/

namespace DynamicLisp.Comparison

/-- Whether the values are integers of which each stands in the relation to the
next, where `previous` is the integer before them. -/
def chainFrom (related : Integer → Integer → Bool) (previous : Integer) : List Value → Bool
  | [] => true
  | .int n :: rest => related previous n && chainFrom related n rest
  | _ :: _ => false

/-- Whether the values are integers of which each stands in the relation to the
next. -/
def chain (related : Integer → Integer → Bool) : List Value → Bool
  | [] => true
  | .int n :: rest => chainFrom related n rest
  | _ :: _ => false

/-- The relations on integers that programs can ask for. -/
inductive Relation where
  | eq
  | lt
  | gt
  | le
  | ge

/-- Whether two integers stand in a relation. -/
def Relation.holds : Relation → Integer → Integer → Bool
  | eq, a, b => a == b
  | lt, a, b => decide (a < b)
  | gt, a, b => decide (b < a)
  | le, a, b => decide (a ≤ b)
  | ge, a, b => decide (b ≤ a)

/-- Compares any number of values. -/
def compare (relation : Relation) (args : List Value) : Value :=
  .bool (chain relation.holds args)

end DynamicLisp.Comparison
