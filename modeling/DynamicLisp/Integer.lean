/-!
# Integers of the language

The language has one kind of number, the signed 64-bit integer. Its operations
never wrap: the exact result is computed first, and `Integer.ofInt?` refuses it
when it has no 64-bit form.
-/

namespace DynamicLisp

/-- A signed 64-bit integer. -/
abbrev Integer := Int64

namespace Integer

/-- The integers that have a 64-bit form: from minus two to the power 63 to one
less than two to the power 63. -/
def InRange (n : Int) : Prop := -9223372036854775808 ≤ n ∧ n ≤ 9223372036854775807

instance (n : Int) : Decidable (InRange n) :=
  inferInstanceAs (Decidable (_ ∧ _))

/-- The 64-bit form of an exact integer, if it has one. -/
def ofInt? (n : Int) : Option Integer :=
  if InRange n then some (Int64.ofInt n) else none

/-- Decimal digits, with a minus sign in front of a negative number. -/
def text (n : Integer) : String :=
  if n.toInt < 0 then "-" ++ n.toInt.natAbs.repr else n.toInt.natAbs.repr

/-- A 64-bit form stands for exactly the integer it was made from. -/
theorem ofInt?_eq_some_iff {n : Int} {word : Integer} :
    ofInt? n = some word ↔ word.toInt = n := by
  unfold ofInt?
  constructor
  · intro h
    split at h
    · next range =>
      cases h
      obtain ⟨low, high⟩ := range
      exact Int64.toInt_ofInt_of_le low (by omega)
    · cases h
  · rintro rfl
    have low := Int64.le_toInt word
    have high := Int64.toInt_lt word
    rw [if_pos ⟨by omega, by omega⟩, Int64.ofInt_toInt]

end Integer

end DynamicLisp
