import DynamicLisp.Error

/-!
# Taking lists apart and putting them together

Nil stands for the end of a list in two places: it is what remains of a list
with one item, and it may be the tail of a new list. It is not a list itself.
-/

namespace DynamicLisp.Lists

/-- The first item of a list. -/
def car : Value → Except Error Value
  | .list (item :: _) => .ok item
  | .list [] => .error (.eval (.emptyList "car"))
  | got => .error (.type (.notList "car" got))

/-- A list without its first item, or nil if that was the only one. -/
def cdr : Value → Except Error Value
  | .list [] => .error (.eval (.emptyList "cdr"))
  | .list [_] => .ok .nil
  | .list (_ :: items) => .ok (.list items)
  | got => .error (.type (.notList "cdr" got))

/-- A list with one more item in front. -/
def cons (item : Value) : Value → Except Error Value
  | .list items => .ok (.list (item :: items))
  | .nil => .ok (.list [item])
  | got => .error (.type (.notListTail got))

end DynamicLisp.Lists
