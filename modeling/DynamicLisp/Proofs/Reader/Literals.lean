import DynamicLisp.Proofs.Reader.Grammar
import Mathlib.Data.List.Induction

/-!
# The values of atoms

The value that the reader gives to an atom is the one that the grammar says it
denotes.
-/

namespace DynamicLisp.Grammar

variable {text : List Char}

/-- The reader adds digits at the right end, the positional value is defined from
the right end on. -/
theorem digitsValue_eq (text : List Char) :
    Atom.digitsValue text = Nat.ofDigits 10 (text.reverse.map fun c => c.toNat - '0'.toNat) := by
  induction text using List.reverseRecOn with
  | nil => rfl
  | append_singleton text c ih =>
      rw [Atom.digitsValue] at ih ⊢
      rw [List.foldl_append, List.reverse_append, ih]
      simp only [List.foldl_cons, List.foldl_nil, List.reverse_cons, List.reverse_nil,
        List.nil_append, List.cons_append, List.map_cons, Nat.ofDigits_cons]
      rw [Nat.add_comm]

theorem isDigit_iff (c : Char) : c.isDigit = true ↔ '0' ≤ c ∧ c ≤ '9' := by
  simp [Char.isDigit, Char.le_def]

theorem unsigned?_eq_some_iff {n : Nat} : Atom.unsigned? text = some n ↔ Digits text n := by
  unfold Atom.unsigned?
  constructor
  · intro read
    split at read
    · next digits =>
      obtain ⟨nonempty, decimal⟩ := digits
      rw [List.all_eq_true] at decimal
      refine ⟨nonempty, fun c member => (isDigit_iff c).mp (decimal c member), ?_⟩
      rw [← Option.some.inj read, digitsValue_eq]
    · cases read
  · rintro ⟨nonempty, decimal, rfl⟩
    have digits : text.all Char.isDigit = true :=
      List.all_eq_true.mpr fun c member => (isDigit_iff c).mpr (decimal c member)
    rw [if_pos ⟨nonempty, digits⟩, digitsValue_eq]

/-- A sign is no digit. -/
theorem not_digits_of_sign {c : Char} (sign : c = '+' ∨ c = '-') (n : Nat) :
    ¬ Digits (c :: text) n := by
  intro digits
  have decimal := digits.decimal c List.mem_cons_self
  rcases sign with rfl | rfl
  · exact absurd decimal (by decide)
  · exact absurd decimal (by decide)

theorem literal_plus_iff {n : Int} :
    Literal ('+' :: text) n ↔ ∃ k : Nat, Digits text k ∧ (k : Int) = n := by
  constructor
  · intro literal
    cases literal with
    | unsigned digits => exact absurd digits (not_digits_of_sign (.inl rfl) _)
    | plus digits => exact ⟨_, digits, rfl⟩
  · rintro ⟨k, digits, rfl⟩
    exact .plus digits

theorem literal_minus_iff {n : Int} :
    Literal ('-' :: text) n ↔ ∃ k : Nat, Digits text k ∧ -(k : Int) = n := by
  constructor
  · intro literal
    cases literal with
    | unsigned digits => exact absurd digits (not_digits_of_sign (.inr rfl) _)
    | minus digits => exact ⟨_, digits, rfl⟩
  · rintro ⟨k, digits, rfl⟩
    exact .minus digits

theorem literal_unsigned_iff {n : Int} (plus : ∀ digits, text ≠ '+' :: digits)
    (minus : ∀ digits, text ≠ '-' :: digits) :
    Literal text n ↔ ∃ k : Nat, Digits text k ∧ (k : Int) = n := by
  constructor
  · intro literal
    cases literal with
    | unsigned digits => exact ⟨_, digits, rfl⟩
    | plus => exact absurd rfl (plus _)
    | minus => exact absurd rfl (minus _)
  · rintro ⟨k, digits, rfl⟩
    exact .unsigned digits

theorem literal?_eq_some_iff {n : Int} : Atom.literal? text = some n ↔ Literal text n := by
  unfold Atom.literal?
  split
  · simp only [Option.map_eq_some_iff, unsigned?_eq_some_iff, literal_plus_iff]
  · simp only [Option.map_eq_some_iff, unsigned?_eq_some_iff, literal_minus_iff]
  · next plus minus =>
    rw [literal_unsigned_iff plus minus]
    simp only [Option.map_eq_some_iff, unsigned?_eq_some_iff]

theorem integer?_eq_some_iff {n : Integer} :
    Atom.integer? text = some n ↔ Literal text n.toInt := by
  simp only [Atom.integer?, Option.bind_eq_some_iff, Integer.ofInt?_eq_some_iff,
    literal?_eq_some_iff]
  constructor
  · rintro ⟨m, literal, rfl⟩
    exact literal
  · intro literal
    exact ⟨_, literal, rfl⟩

theorem denotes_iff {value : Value} : Denotes text value ↔ value = Atom.value text := by
  unfold Atom.value
  cases read : Atom.integer? text with
  | some n =>
      have literal := integer?_eq_some_iff.mp read
      constructor
      · intro denotes
        cases denotes with
        | integer other =>
            rw [← integer?_eq_some_iff, read] at other
            rw [Option.some.inj other]
        | symbol others => exact absurd literal (others n)
      · rintro rfl
        exact .integer literal
  | none =>
      have others : ∀ n : Integer, ¬ Literal text n.toInt := by
        intro n literal
        rw [← integer?_eq_some_iff, read] at literal
        cases literal
      constructor
      · intro denotes
        cases denotes with
        | integer literal => exact absurd literal (others _)
        | symbol => rfl
      · rintro rfl
        exact .symbol others

end DynamicLisp.Grammar
