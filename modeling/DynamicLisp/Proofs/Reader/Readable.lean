import DynamicLisp.Proofs.Reader.Acceptance

/-!
# Values that can be read

Text has no way to write nil, a boolean or a closure, nor a symbol whose name would
be cut at a delimiter or taken for something else. What is left are the legible
values. Of these, a dialect reads those in which lists do not stand too deep inside
one another, and the reader never gives any other value.
-/

namespace DynamicLisp

open Grammar

namespace Value

mutual

/-- How deep lists stand inside one another. Atoms and the empty list have nesting
0, any other list is one deeper than its deepest item. -/
def nesting : Value → Nat
  | list items => itemsNesting items
  | _ => 0

/-- The nesting of a list with the given items. -/
def itemsNesting : List Value → Nat
  | [] => 0
  | item :: items => max (nesting item + 1) (itemsNesting items)

end

theorem itemsNesting_lt_iff {items : List Value} {bound : Nat} (positive : 0 < bound) :
    itemsNesting items < bound ↔ ∀ item ∈ items, item.nesting + 1 < bound := by
  induction items with
  | nil => simpa [itemsNesting] using positive
  | cons item items ih => simp [itemsNesting, ih]

/-- The names that stand for themselves in text: such a name is a token, and it is
no integer in range. -/
structure LegibleName (d : Dialect) (name : String) : Prop where
  nonempty : name ≠ ""
  unbroken : ∀ c ∈ name.toList, c ∉ delimiters d
  unquoted : name.toList.head? ≠ some Dialect.quoteMark
  noInteger : ∀ n : Integer, ¬ Literal name.toList n.toInt

/-- Integers, symbols with legible names, and lists of such values. -/
inductive Legible (d : Dialect) : Value → Prop where
  | int (n : Integer) : Legible d (.int n)
  | symbol {name} (legible : LegibleName d name) : Legible d (.symbol name)
  | list {items} (legible : ∀ item ∈ items, Legible d item) : Legible d (.list items)

/-- The values that have a text from which they can be read. -/
structure Readable (d : Dialect) (value : Value) : Prop where
  legible : value.Legible d
  shallow : value.nesting < depthLimit

theorem legible_quote (d : Dialect) : LegibleName d "quote" := by
  refine ⟨by decide, ?_, by decide, ?_⟩
  · obtain ⟨comments⟩ := d
    cases comments <;> simp [delimiters, spaces]
  · intro n literal
    rw [← integer?_eq_some_iff] at literal
    cases literal

end Value

namespace Grammar

open Value

variable {d : Dialect}

theorem Denotes.legible {text rest : List Char} {value : Value} (denotes : Denotes text value)
    (token : Token d text rest) : value.Legible d ∧ value.nesting = 0 := by
  cases denotes with
  | integer => exact ⟨.int _, by simp [nesting]⟩
  | symbol others =>
      refine ⟨.symbol ⟨?_, ?_, ?_, ?_⟩, by simp [nesting]⟩
      · intro empty
        have chars := congrArg String.toList empty
        rw [String.toList_ofList] at chars
        exact token.nonempty chars
      · simpa using token.unbroken
      · simpa using token.unquoted
      · simpa using others

mutual

/-- A form denotes a legible value that fits into the room its depth leaves. -/
theorem Form.legible : ∀ {depth : Nat} {text : List Char} {value : Value} {rest : List Char},
    Form d depth text value rest → value.Legible d ∧ value.nesting + depth < depthLimit
  | depth, _, _, _, .atom shallow _ token denotes => by
      obtain ⟨legible, flat⟩ := denotes.legible token
      exact ⟨legible, by omega⟩
  | depth, _, _, _, @Form.list _ _ _ _ values _ _ shallow _ items _ => by
      have inside := Forms.legible items
      refine ⟨.list fun item member => (inside item member).1, ?_⟩
      have bounded : itemsNesting values < depthLimit - depth := by
        rw [itemsNesting_lt_iff (by omega)]
        intro item member
        have := (inside item member).2
        omega
      rw [nesting]
      omega
  | depth, _, _, _, .quote shallow _ quoted => by
      obtain ⟨legible, fits⟩ := Form.legible quoted
      constructor
      · apply Legible.list
        intro item member
        simp only [List.mem_cons, List.not_mem_nil, or_false] at member
        obtain rfl | rfl := member
        · exact .symbol (legible_quote d)
        · exact legible
      · simp only [nesting, itemsNesting]
        omega

theorem Forms.legible :
    ∀ {depth : Nat} {text : List Char} {values : List Value} {rest : List Char},
      Forms d depth text values rest →
        ∀ value ∈ values, value.Legible d ∧ value.nesting + depth < depthLimit
  | _, _, _, _, .nil => by simp
  | _, _, _, _, .cons first later => by
      rw [List.forall_mem_cons]
      exact ⟨Form.legible first, Forms.legible later⟩

end

theorem Form.readable {text rest : List Char} {value : Value} (form : Form d 0 text value rest) :
    value.Readable d :=
  ⟨form.legible.1, form.legible.2⟩

end Grammar

section Image

variable {d : Dialect} {text rest : List Char} {value : Value}

theorem readable_of_readOne (read : readOne d text = .ok value) : value.Readable d := by
  obtain ⟨_, _, _, form, _⟩ := readOne_eq_ok_iff.mp read
  exact form.readable

theorem readable_of_readNext (read : readNext d text = .ok (some (value, rest))) :
    value.Readable d := by
  obtain ⟨_, _, form⟩ := readNext_eq_some_iff.mp read
  exact form.readable

theorem readable_of_readAll {values : List Value} (read : readAll d text = .ok values) :
    ∀ value ∈ values, value.Readable d := by
  obtain ⟨_, _, _, forms, _⟩ := readAll_eq_ok_iff.mp read
  intro value member
  exact ⟨(forms.legible value member).1, (forms.legible value member).2⟩

end Image

end DynamicLisp
