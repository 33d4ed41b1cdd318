import DynamicLisp.State

/-!
# Operators

A registry holds the operators of an interpreter in two tables. A primitive gets
the values of its operands and the frame it is called from, and may act on the
state as evaluation does: read and bind names, open frames, make closures, evaluate
expressions with a registry of its own. A special form gets the operands themselves
and decides which of them to evaluate, how often and in which order.

An operand comes with its own evaluation. A special form that does no more than
evaluate its operands can therefore be written without an evaluator, and cannot
make evaluation run forever. A form that evaluates an expression it has computed
asks its site for it.
-/

namespace DynamicLisp

/-- An expression that is given to a special form, with its evaluation in the
frame of the form. -/
structure Operand where
  expr : Value
  eval : Eval Value

/-- Where a special form is evaluated. -/
structure Site where
  frame : FrameId
  /-- Evaluates an expression in that frame. -/
  eval : Value → Eval Value

/-- An operator that gets its operands unevaluated. -/
structure SpecialForm where
  arity : Arity
  run : Site → List Operand → Eval Value

/-- An operator that gets the values of its operands and the frame of the call. -/
structure Primitive where
  arity : Arity
  run : FrameId → List Value → Eval Value

/-- The operators that an interpreter knows by name. Where both tables have a
name, it means the special form. -/
structure Registry where
  forms : Table SpecialForm
  primitives : Table Primitive

/-- Evaluates operands from left to right, up to the first that fails. -/
def Operand.evalAll : List Operand → Eval (List Value)
  | [] => pure []
  | operand :: operands => do
    let value ← operand.eval
    let values ← evalAll operands
    return value :: values

/-- Checks the number of operands, then runs the form. -/
def SpecialForm.runChecked (form : SpecialForm) (site : Site) (operands : List Operand) :
    Eval Value := do
  Eval.ofExcept (form.arity.check operands.length)
  form.run site operands

/-- Checks the number of arguments, then runs the primitive. -/
def Primitive.runChecked (primitive : Primitive) (f : FrameId) (args : List Value) :
    Eval Value := do
  Eval.ofExcept (primitive.arity.check args.length)
  primitive.run f args

/-- The entry of a special form as a diagnosis shows it. -/
def SpecialForm.inspect (name : String) (form : SpecialForm) : String :=
  "SpecialForm(" ++ name ++ ", " ++ form.arity.inspect ++ ")"

/-- The entry of a primitive as a diagnosis shows it. -/
def Primitive.inspect (name : String) (primitive : Primitive) : String :=
  "Primitive(" ++ name ++ ", " ++ primitive.arity.inspect ++ ")"

namespace Registry

/-- The registry without operators. -/
def empty : Registry := ⟨.empty, .empty⟩

/-- Registers a special form, in place of a special form with its name. -/
def withForm (registry : Registry) (name : String) (form : SpecialForm) : Registry :=
  ⟨registry.forms.insert name form, registry.primitives⟩

/-- Registers a primitive, in place of a primitive with its name. -/
def withPrimitive (registry : Registry) (name : String) (primitive : Primitive) : Registry :=
  ⟨registry.forms, registry.primitives.insert name primitive⟩

end Registry

end DynamicLisp
