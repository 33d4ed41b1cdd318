import DynamicLisp.Proofs.Reader.RoundTrip
import DynamicLisp.Proofs.Session.ProgramText

/-!
# How symbols are spelled

The symbols that a reader makes are legible: such a name has no delimiter in it, and in
particular no line feed. Evaluation never makes a symbol, so legible symbols are all
that a program read from text ever meets. The text of a value with legible symbols is
one line, and where the value has nothing that text cannot write, it can be read back.
-/

namespace DynamicLisp

open Grammar

/-- The text has no line feed in it. -/
def OneLine (text : String) : Prop := '\n' ∉ text.toList

instance (text : String) : Decidable (OneLine text) :=
  inferInstanceAs (Decidable (¬ _))

theorem OneLine.append {first second : String} (one : OneLine first) (two : OneLine second) :
    OneLine (first ++ second) := by
  rw [OneLine, String.toList_append, List.mem_append, not_or]
  exact ⟨one, two⟩

theorem oneLine_repr (n : Nat) : OneLine n.repr := by
  intro member
  rw [Nat.toList_repr] at member
  have digit := Nat.isDigit_of_mem_toDigits (by decide) (by decide) member
  exact absurd digit (by decide)

namespace Value

mutual

/-- The symbols that occur in a value, in lists and in the bodies of closures included. -/
def symbols : Value → List String
  | symbol name => [name]
  | list items => symbolsOfAll items
  | closure _ _ body => symbols body
  | _ => []

/-- The symbols that occur in some of the values. -/
def symbolsOfAll : List Value → List String
  | [] => []
  | value :: values => symbols value ++ symbolsOfAll values

end

/-- Every symbol that occurs in the value has a legible name. -/
def LegibleSymbols (d : Dialect) (value : Value) : Prop :=
  ∀ name ∈ value.symbols, LegibleName d name

variable {d : Dialect} {value : Value}

theorem mem_symbolsOfAll {name : String} {values : List Value} :
    name ∈ symbolsOfAll values ↔ ∃ value ∈ values, name ∈ value.symbols := by
  induction values with
  | nil => simp [symbolsOfAll]
  | cons value values ih => simp [symbolsOfAll, ih]

theorem legibleSymbols_symbol {name : String} :
    (symbol name).LegibleSymbols d ↔ LegibleName d name := by
  simp [LegibleSymbols, symbols]

theorem legibleSymbols_list {items : List Value} :
    (list items).LegibleSymbols d ↔ ∀ item ∈ items, item.LegibleSymbols d := by
  simp only [LegibleSymbols, symbols, mem_symbolsOfAll]
  constructor
  · intro legible item member name inside
    exact legible name ⟨item, member, inside⟩
  · rintro legible name ⟨item, member, inside⟩
    exact legible item member name inside

/-- Symbols are only passed on. -/
theorem discipline_legibleSymbols (d : Dialect) :
    Discipline (LegibleSymbols d) (LegibleSymbols d) where
  quoted legible := legible
  items := legibleSymbols_list.mp
  nil := by simp [LegibleSymbols, symbols]
  bool _ := by simp [LegibleSymbols, symbols]
  int _ := by simp [LegibleSymbols, symbols]
  list := legibleSymbols_list
  closure := by
    intro id params body
    simp only [LegibleSymbols, symbols]

theorem Legible.legibleSymbols (legible : value.Legible d) : value.LegibleSymbols d := by
  induction legible with
  | int n => exact (discipline_legibleSymbols d).int n
  | symbol legible => exact legibleSymbols_symbol.mpr legible
  | list _ ih => exact legibleSymbols_list.mpr ih

/-- What text can write, with symbols that text can write. -/
theorem Textual.legible (textual : value.Textual) (symbols : value.LegibleSymbols d) :
    value.Legible d := by
  induction textual with
  | int n => exact .int n
  | symbol name => exact .symbol (legibleSymbols_symbol.mp symbols)
  | list _ ih =>
      exact .list fun item member => ih item member (legibleSymbols_list.mp symbols item member)

theorem LegibleName.oneLine {name : String} (legible : LegibleName d name) : OneLine name :=
  fun member => legible.unbroken _ member (Reader.spaces_subset_delimiters (by decide))

theorem oneLine_integer (n : Integer) : OneLine n.text := by
  intro member
  obtain ⟨_, plain⟩ := n.literal_text.plain .plain
  exact (plain _ member).1 (Reader.spaces_subset_delimiters (by decide))

theorem oneLine_spaced {items : List Value} (lines : ∀ item ∈ items, OneLine item.text) :
    '\n' ∉ spaced items := by
  induction items with
  | nil => simp [spaced]
  | cons item items ih =>
      obtain ⟨first, rest⟩ := List.forall_mem_cons.mp lines
      by_cases more : items = []
      · subst more
        simpa [spaced, OneLine] using first
      · rw [spaced_cons more, List.mem_append, List.mem_cons]
        rintro (inside | space | later)
        · exact first inside
        · exact absurd space (by decide)
        · exact ih rest later

mutual

/-- A value with legible symbols has a text of one line. -/
theorem LegibleSymbols.oneLine : {value : Value} → value.LegibleSymbols d → OneLine value.text
  | nil, _ => by decide
  | bool b, _ => by cases b <;> decide
  | int n, _ => by
      rw [text]
      exact oneLine_integer n
  | symbol name, legible => by
      rw [text]
      exact (legibleSymbols_symbol.mp legible).oneLine
  | list items, legible => by
      have inside := oneLine_spaced (oneLine_items (legibleSymbols_list.mp legible))
      rw [OneLine, toList_text_list]
      simp [inside]
  | closure .., _ => by
      rw [text]
      decide

theorem oneLine_items : {items : List Value} → (∀ item ∈ items, item.LegibleSymbols d) →
    ∀ item ∈ items, OneLine item.text
  | [], _ => by simp
  | item :: items, legible => by
      obtain ⟨first, rest⟩ := List.forall_mem_cons.mp legible
      exact List.forall_mem_cons.mpr ⟨first.oneLine, oneLine_items rest⟩

end

theorem LegibleSymbols.oneLine_mention (legible : value.LegibleSymbols d) :
    OneLine value.mention := by
  have kind : OneLine value.kind := by
    unfold kind
    split <;> decide
  exact ((kind.append (by decide)).append legible.oneLine).append (by decide)

end Value

end DynamicLisp
