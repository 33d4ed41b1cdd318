import DynamicLisp.Text.Quoted
import DynamicLisp.Value

/-!
# The two texts of a value

`Value.text` is what a program's user sees. For values made of integers, symbols
and lists it is again program text, and reading it gives the value back.
`Value.inspect` names every constructor and shows the inside of closures; it is
meant for diagnosis.
-/

namespace DynamicLisp.Value

mutual

/-- The text of a value: `nil`, `#t`, `-12`, `name`, `(a b)`, `#<closure>`. -/
def text : Value → String
  | nil => "nil"
  | bool b => if b then "#t" else "#f"
  | int n => n.text
  | symbol name => name
  | list items => "(" ++ " ".intercalate (texts items) ++ ")"
  | closure .. => "#<closure>"

/-- The texts of a list of values. -/
def texts : List Value → List String
  | [] => []
  | item :: items => text item :: texts items

end

mutual

/-- The inspection text of a value, such as `List(Symbol(car), Int(1))`. -/
def inspect : Value → String
  | nil => "Nil"
  | bool b => if b then "Bool(true)" else "Bool(false)"
  | int n => "Int(" ++ n.text ++ ")"
  | symbol name => "Symbol(" ++ name ++ ")"
  | list items => "List(" ++ ", ".intercalate (inspectAll items) ++ ")"
  | closure _ params body =>
    "Closure(params=" ++ Text.quoteAll params ++ ", body=" ++ inspect body ++ ")"

/-- The inspection texts of a list of values. -/
def inspectAll : List Value → List String
  | [] => []
  | item :: items => inspect item :: inspectAll items

end

/-- How error messages mention a value: its kind, then its text in quotes. -/
def mention (value : Value) : String :=
  value.kind ++ " '" ++ value.text ++ "'"

end DynamicLisp.Value
