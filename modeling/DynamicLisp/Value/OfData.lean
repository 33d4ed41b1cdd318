import DynamicLisp.Value

/-!
# Values of host data

Booleans, integers of at most 64 signed bits and lists of such data have a
value of the language. Every integer type here is contained in the signed
64-bit integers, so no conversion loses anything.
-/

namespace DynamicLisp

/-- Data that can be handed to a program as a value. -/
class ToValue (α : Type) where
  toValue : α → Value

export ToValue (toValue)

instance : ToValue Value := ⟨id⟩

instance : ToValue Bool := ⟨.bool⟩

instance : ToValue Int8 := ⟨fun n => .int n.toInt64⟩

instance : ToValue Int16 := ⟨fun n => .int n.toInt64⟩

instance : ToValue Int32 := ⟨fun n => .int n.toInt64⟩

instance : ToValue Integer := ⟨.int⟩

instance : ToValue UInt8 := ⟨fun n => .int (Int64.ofNat n.toNat)⟩

instance : ToValue UInt16 := ⟨fun n => .int (Int64.ofNat n.toNat)⟩

instance : ToValue UInt32 := ⟨fun n => .int (Int64.ofNat n.toNat)⟩

instance {α : Type} [ToValue α] : ToValue (List α) := ⟨fun items => .list (items.map toValue)⟩

end DynamicLisp
