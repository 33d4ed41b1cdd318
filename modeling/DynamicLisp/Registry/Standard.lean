import DynamicLisp.Primitives.Arithmetic
import DynamicLisp.Primitives.Comparison
import DynamicLisp.Primitives.Lists
import DynamicLisp.SpecialForms

/-!
# The standard registry
-/

namespace DynamicLisp

namespace SpecialForm

/-- Quotation. -/
def quote : SpecialForm := ⟨.exact 1, fun _ => SpecialForms.quote⟩

/-- Choice between two operands. -/
def choose : SpecialForm := ⟨.exact 3, fun _ => SpecialForms.choose⟩

/-- Definition in the frame of the form. -/
def define : SpecialForm := ⟨.exact 2, fun site => SpecialForms.define site.frame⟩

/-- Abstraction. -/
def lambda : SpecialForm := ⟨.exact 2, fun _ => SpecialForms.lambda⟩

end SpecialForm

/-- The four special forms with their names. -/
def SpecialForms.standard : List (String × SpecialForm) :=
  [("quote", .quote), ("if", .choose), ("define", .define), ("lambda", .lambda)]

namespace Primitive

/-- A comparison of at least two values. -/
def comparison (relation : Comparison.Relation) : Primitive :=
  ofValues (.atLeast 2) fun args => .ok (Comparison.compare relation args)

/-- The operations on lists, the comparisons and the arithmetic. -/
def standard : List (String × Primitive) :=
  [("car", ofFunction [.value] Lists.car),
    ("cdr", ofFunction [.value] Lists.cdr),
    ("cons", ofFunction [.value, .value] Lists.cons),
    ("=", comparison .eq),
    (">", comparison .gt),
    ("<", comparison .lt),
    (">=", comparison .ge),
    ("<=", comparison .le),
    ("+", ofIntegers .any Arithmetic.add),
    ("-", ofIntegers .any Arithmetic.subtract),
    ("*", ofIntegers .any Arithmetic.multiply)]

end Primitive

/-- The registry of an interpreter to which nothing was added. -/
def Registry.standard : Registry :=
  ⟨.ofList SpecialForms.standard, .ofList Primitive.standard⟩

end DynamicLisp
