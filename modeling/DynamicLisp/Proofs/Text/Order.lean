import Mathlib.Tactic.ByContra
import Mathlib.Tactic.SplitIfs

/-!
# The order of names

A table keeps its names in the order of their characters. This is the order of their
UTF-8 bytes: of two characters the one with the greater code point has the greater bytes,
whatever comes after them. Codes of different lengths differ in their first byte already,
and codes of one length are digits of the code point, the most significant first.
-/

namespace DynamicLisp.Text

/-- The UTF-8 bytes of a name. -/
def bytes (name : String) : List UInt8 := name.toUTF8.data.toList

theorem bytes_eq (name : String) : bytes name = name.toList.flatMap String.utf8EncodeChar := by
  have encoded : name.toUTF8 = name.toList.utf8Encode := by
    rw [← String.toByteArray_ofList, String.ofList_toList]
    rfl
  rw [bytes, encoded, List.utf8Encode, List.toList_data_toByteArray]

section Characters

variable {m n q r : Nat} {s t : List UInt8}

theorem byte_lt (small : n < 256) (lt : m < n) : UInt8.ofNat m < UInt8.ofNat n := by
  rw [UInt8.lt_iff_toNat_lt, UInt8.toNat_ofNat', UInt8.toNat_ofNat',
    Nat.mod_eq_of_lt (Nat.lt_trans lt small), Nat.mod_eq_of_lt small]
  exact lt

theorem firstByte_lt (small : n < 256) (lt : m < n) :
    UInt8.ofNat m :: s < UInt8.ofNat n :: t :=
  List.cons_lt_cons_iff.mpr (.inl (byte_lt small lt))

/-- Either the leading digits decide or what is left over does. -/
theorem nextByte_lt (small : n < 256) (digits : m < n ∨ m = n ∧ q < r) (rest : q < r → s < t) :
    UInt8.ofNat m :: s < UInt8.ofNat n :: t := by
  obtain lt | ⟨rfl, lt⟩ := digits
  · exact firstByte_lt small lt
  · exact List.cons_lt_cons_iff.mpr (.inr ⟨rfl, rest lt⟩)

theorem codePoint_lt (c : Char) : c.val.toNat < 0x110000 := by
  obtain low | ⟨_, high⟩ := c.valid
  · exact Nat.lt_trans low (by decide)
  · exact high

/-- The bytes of a greater character are greater, whatever comes after them. -/
theorem utf8EncodeChar_append_lt {c d : Char} (lt : c < d) (s t : List UInt8) :
    String.utf8EncodeChar c ++ s < String.utf8EncodeChar d ++ t := by
  have code : c.val.toNat < d.val.toNat := lt
  have bound := codePoint_lt d
  simp only [String.utf8EncodeChar]
  generalize c.val.toNat = m at code ⊢
  generalize d.val.toNat = n at code bound ⊢
  split_ifs
  -- The smaller character does not have more bytes.
  all_goals try omega
  -- Where it has fewer bytes, or both have one, the first byte decides.
  all_goals try exact firstByte_lt (by omega) (by omega)
  · refine nextByte_lt (q := m % 64) (r := n % 64) (by omega) (by omega) fun low => ?_
    exact firstByte_lt (by omega) (by omega)
  · refine nextByte_lt (q := m % 4096) (r := n % 4096) (by omega) (by omega) fun middle => ?_
    refine nextByte_lt (q := m % 64) (r := n % 64) (by omega) (by omega) fun low => ?_
    exact firstByte_lt (by omega) (by omega)
  · refine nextByte_lt (q := m % 262144) (r := n % 262144) (by omega) (by omega) fun high => ?_
    refine nextByte_lt (q := m % 4096) (r := n % 4096) (by omega) (by omega) fun middle => ?_
    refine nextByte_lt (q := m % 64) (r := n % 64) (by omega) (by omega) fun low => ?_
    exact firstByte_lt (by omega) (by omega)

end Characters

theorem flatMap_utf8EncodeChar_lt {text other : List Char} (lt : text < other) :
    text.flatMap String.utf8EncodeChar < other.flatMap String.utf8EncodeChar := by
  induction text generalizing other with
  | nil =>
      obtain _ | ⟨d, other⟩ := other
      · exact absurd lt (List.lt_irrefl [])
      · rw [List.flatMap_nil, List.flatMap_cons]
        obtain ⟨first, rest, code⟩ :=
          List.exists_cons_of_ne_nil (String.utf8EncodeChar_ne_nil (c := d))
        rw [code]
        exact List.nil_lt_cons _ _
  | cons c text ih =>
      obtain _ | ⟨d, other⟩ := other
      · exact absurd lt (List.not_lt_nil _)
      · rw [List.flatMap_cons, List.flatMap_cons]
        obtain smaller | ⟨rfl, later⟩ := List.cons_lt_cons_iff.mp lt
        · exact utf8EncodeChar_append_lt smaller _ _
        · exact List.append_left_lt (ih later)

/-- Names are ordered as their bytes are. -/
theorem bytes_lt_iff {name other : String} : bytes name < bytes other ↔ name < other := by
  have chars : name < other ↔ name.toList < other.toList := Iff.rfl
  rw [bytes_eq, bytes_eq, chars]
  refine ⟨fun lt => ?_, flatMap_utf8EncodeChar_lt⟩
  by_contra notLt
  obtain greater | same := List.le_iff_lt_or_eq.mp (List.not_lt.mp notLt)
  · exact List.lt_asymm lt (flatMap_utf8EncodeChar_lt greater)
  · exact List.lt_irrefl _ (same ▸ lt)

theorem bytes_le_iff {name other : String} : bytes name ≤ bytes other ↔ name ≤ other := by
  rw [← List.not_lt, bytes_lt_iff, String.not_lt]

end DynamicLisp.Text
