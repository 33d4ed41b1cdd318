import DynamicLisp.Proofs.Reader.Readable
import DynamicLisp.Value.Text

/-!
# Printing and reading back

The text of a legible value is a form of the grammar, at any depth that leaves room
for its lists, and it denotes the value. Where the room does not suffice, the reader
fails at the first item that stands too deep. So the values that can be read are
exactly those that are read back from their own text.
-/

namespace DynamicLisp

open Grammar

section Integers

variable {n : Integer}

/-- The decimal digits of a number are digits with its value. -/
theorem digits_toDigits (n : Nat) : Digits (Nat.toDigits 10 n) n := by
  have value : Atom.digitsValue (Nat.toDigits 10 n) = n := by
    rw [Atom.digitsValue, ← Nat.ofDigitChars_eq_foldl, Nat.ofDigitChars_ten_toDigits]
  refine ⟨Nat.toDigits_ne_nil, ?_, by rw [← digitsValue_eq, value]⟩
  intro c member
  exact (isDigit_iff c).mp (Nat.isDigit_of_mem_toDigits (by decide) (by decide) member)

theorem Integer.text_of_nonneg (nonneg : 0 ≤ n.toInt) :
    n.text.toList = Nat.toDigits 10 n.toInt.natAbs := by
  rw [text, if_neg (by omega), Nat.toList_repr]

theorem Integer.text_of_neg (negative : n.toInt < 0) :
    n.text.toList = '-' :: Nat.toDigits 10 n.toInt.natAbs := by
  rw [text, if_pos negative, String.toList_append, Nat.toList_repr]
  rfl

theorem Integer.literal_text (n : Integer) : Literal n.text.toList n.toInt := by
  have digits := digits_toDigits n.toInt.natAbs
  by_cases negative : n.toInt < 0
  · have magnitude : -(n.toInt.natAbs : Int) = n.toInt := by omega
    rw [text_of_neg negative, ← magnitude, Int.natAbs_neg, Int.natAbs_natCast]
    exact .minus digits
  · have magnitude : (n.toInt.natAbs : Int) = n.toInt := by omega
    rw [text_of_nonneg (by omega), ← magnitude, Int.natAbs_natCast]
    exact .unsigned digits

/-- Signs and digits are neither delimiters nor quote marks. -/
theorem Grammar.Literal.plain {text : List Char} {value : Int} (literal : Literal text value)
    (d : Dialect) : text ≠ [] ∧ ∀ c ∈ text, c ∉ delimiters d ∧ c ≠ Dialect.quoteMark := by
  have sign : ∀ c ∈ ['+', '-'], c ∉ delimiters d ∧ c ≠ Dialect.quoteMark := by
    obtain ⟨comments⟩ := d
    cases comments <;> simp [delimiters, spaces, Dialect.quoteMark]
  have digit : ∀ c : Char, '0' ≤ c ∧ c ≤ '9' → c ∉ delimiters d ∧ c ≠ Dialect.quoteMark := by
    rintro c ⟨low, high⟩
    constructor
    · intro member
      have excluded : ∀ c ∈ delimiters d, c < '0' ∨ '9' < c := by
        obtain ⟨comments⟩ := d
        cases comments <;> simp [delimiters, spaces]
      rcases excluded c member with below | above
      · exact absurd low (Char.not_le.mpr below)
      · exact absurd high (Char.not_le.mpr above)
    · rintro rfl
      exact absurd low (by decide)
  cases literal with
  | unsigned digits => exact ⟨digits.nonempty, fun c member => digit c (digits.decimal c member)⟩
  | plus digits | minus digits =>
      refine ⟨by simp, List.forall_mem_cons.mpr ⟨sign _ (by simp), ?_⟩⟩
      exact fun c member => digit c (digits.decimal c member)

end Integers

namespace Value

theorem texts_eq_map (items : List Value) : texts items = items.map text := by
  induction items with
  | nil => rfl
  | cons item items ih => rw [texts, ih, List.map_cons]

/-- The texts of items, with a space between any two. -/
def spaced (items : List Value) : List Char :=
  [' '].intercalate (items.map fun item => item.text.toList)

theorem toList_text_list (items : List Value) :
    (list items).text.toList = '(' :: spaced items ++ [')'] := by
  simp [text, texts_eq_map, String.toList_append, String.toList_intercalate, spaced,
    Function.comp_def]

theorem spaced_cons {items : List Value} (more : items ≠ []) (item : Value) :
    spaced (item :: items) = item.text.toList ++ ' ' :: spaced items := by
  simp [spaced, List.intercalate_cons_of_ne_nil, more]

end Value

section Forms

open Value

variable {d : Dialect} {depth : Nat} {text rest : List Char} {value : Value}

namespace Grammar

theorem Forms.space {values : List Value} (forms : Forms d depth text (value :: values) rest) :
    Forms d depth (' ' :: text) (value :: values) rest := by
  cases forms with
  | cons first later => exact .cons (first.skip (.space (by decide) .nil)) later

/-- A token in front of the text ends there. -/
def EndsToken (d : Dialect) (rest : List Char) : Prop := ∀ c ∈ rest.head?, c ∈ delimiters d

theorem endsToken_nil : EndsToken d [] := by
  simp [EndsToken]

theorem endsToken_space : EndsToken d (' ' :: rest) := by
  simp [EndsToken, delimiters, spaces]

theorem endsToken_close : EndsToken d (')' :: rest) := by
  simp [EndsToken, delimiters]

/-- Texts of forms with spaces between them are forms. -/
theorem forms_spaced {items : List Value} (ends : EndsToken d rest)
    (forms : ∀ item ∈ items, ∀ rest, EndsToken d rest →
      Form d depth item.text.toList item rest) :
    Forms d depth (spaced items) items rest := by
  induction items with
  | nil => exact .nil
  | cons item items ih =>
      obtain ⟨first, later⟩ := List.forall_mem_cons.mp forms
      cases items with
      | nil =>
          have form : Forms d depth (item.text.toList ++ []) [item] rest :=
            .cons (first rest ends) .nil
          simpa [spaced] using form
      | cons next items =>
          rw [spaced_cons (by simp)]
          exact .cons (first _ endsToken_space) (ih later).space

end Grammar

theorem Value.LegibleName.token {name : String} (legible : LegibleName d name)
    (ends : EndsToken d rest) : Token d name.toList rest := by
  refine ⟨?_, legible.unbroken, legible.unquoted, ends⟩
  intro empty
  exact legible.nonempty (String.toList_eq_nil_iff.mp empty)

theorem Integer.token_text (n : Integer) (ends : EndsToken d rest) :
    Token d n.text.toList rest := by
  obtain ⟨nonempty, plain⟩ := n.literal_text.plain d
  refine ⟨nonempty, fun c member => (plain c member).1, ?_, ends⟩
  intro quoted
  exact (plain _ (List.mem_of_mem_head? quoted)).2 rfl

/-- The text of a legible value is a form that denotes the value, at every depth that
leaves room for it. -/
theorem Value.Legible.form (legible : value.Legible d)
    (fits : value.nesting + depth < depthLimit) (ends : EndsToken d rest) :
    Form d depth value.text.toList value rest := by
  have shallow : depth < depthLimit := by omega
  induction legible generalizing depth rest with
  | int n => exact .atom shallow .nil (n.token_text ends) (.integer n.literal_text)
  | @symbol name legible =>
      have denotes : Denotes name.toList (.symbol name) := by
        simpa using Denotes.symbol legible.noInteger
      exact .atom shallow .nil (legible.token ends) denotes
  | @list items legible ih =>
      have inside : ∀ item ∈ items, item.nesting + (depth + 1) < depthLimit := by
        have bounded : itemsNesting items < depthLimit - depth := by
          rw [nesting] at fits
          omega
        intro item member
        have room := (itemsNesting_lt_iff (by omega)).mp bounded item member
        omega
      have forms : Forms d (depth + 1) (spaced items) items (')' :: rest) := by
        apply forms_spaced endsToken_close
        intro item member rest ends
        have room := inside item member
        exact ih item member room ends (by omega)
      have form : Form d depth ([] ++ '(' :: spaced items ++ [] ++ [')']) (.list items) rest :=
        .list shallow .nil forms .nil
      rw [toList_text_list]
      simpa using form

theorem Value.Readable.readOne_text (readable : value.Readable d) :
    readOne d value.text.toList = .ok value := by
  have form : Form d 0 value.text.toList value [] :=
    readable.legible.form readable.shallow endsToken_nil
  exact readOne_eq_ok_iff.mpr ⟨_, [], by rw [List.append_nil], form, .nil⟩

end Forms

section TooDeep

open Value Reader

variable {d : Dialect} {stack : List Context} {value : Value}

/-- A token does not start with anything that can be read where no context fits. -/
theorem Grammar.Token.head {text rest : List Char} (token : Token d text rest) :
    ∃ c later, text = c :: later ∧ c ∉ spaces ∧ d.startsComment c = false ∧ c ≠ ')' := by
  cases text with
  | nil => exact absurd rfl token.nonempty
  | cons c later =>
      have inside := token.unbroken c List.mem_cons_self
      refine ⟨c, later, rfl, fun space => inside (spaces_subset_delimiters space), ?_, ?_⟩
      · rw [← Bool.not_eq_true, startsComment_iff]
        rintro ⟨enabled, rfl⟩
        exact inside (by simp [delimiters, enabled])
      · rintro rfl
        exact inside (by simp [delimiters])

theorem Value.Legible.head (legible : value.Legible d) :
    ∃ c later, value.text.toList = c :: later ∧ c ∉ spaces ∧ d.startsComment c = false ∧
      c ≠ ')' := by
  cases legible with
  | int n => exact (n.token_text endsToken_nil).head
  | symbol legible => exact (legible.token endsToken_nil).head
  | list =>
      exact ⟨'(', _, toList_text_list _, by decide, by simp [Dialect.startsComment], by decide⟩

/-- No legible value is read where no further context fits. -/
theorem Value.Legible.run_full (legible : value.Legible d) (full : depthLimit ≤ stack.length)
    (rest : List Char) :
    ∃ later, run d .between stack (value.text.toList ++ rest) = .fault .tooDeep later := by
  obtain ⟨c, later, shape, noSpace, noComment, noClose⟩ := legible.head
  rw [shape, List.cons_append]
  exact ⟨_, Reader.run_tooDeep full noSpace noComment noClose⟩

/-- The items before the first one that stands too deep are read, and at that one
the reader fails. -/
theorem run_spaced_tooDeep {items : List Value} (legible : ∀ item ∈ items, item.Legible d)
    (fault : ∀ item ∈ items, depthLimit ≤ item.nesting + (stack.length + 1) →
      ∀ (before : List Value) rest, ∃ later,
        run d .between (.list before :: stack) (item.text.toList ++ rest) = .fault .tooDeep later)
    (deep : ∃ item ∈ items, depthLimit ≤ item.nesting + (stack.length + 1))
    (before : List Value) (rest : List Char) :
    ∃ later, run d .between (.list before :: stack) (spaced items ++ rest) =
      .fault .tooDeep later := by
  induction items generalizing before with
  | nil => simp at deep
  | cons item items ih =>
      obtain ⟨legibleItem, legibleItems⟩ := List.forall_mem_cons.mp legible
      obtain ⟨faultItem, faultItems⟩ := List.forall_mem_cons.mp fault
      by_cases stops : depthLimit ≤ item.nesting + (stack.length + 1)
      · cases items with
        | nil => simpa [spaced] using faultItem stops before rest
        | cons next items =>
            rw [spaced_cons (by simp), List.append_assoc]
            exact faultItem stops before _
      · have deeper : ∃ item ∈ items, depthLimit ≤ item.nesting + (stack.length + 1) := by
          simpa [stops] using deep
        have more : items ≠ [] := by
          obtain ⟨other, member, _⟩ := deeper
          exact List.ne_nil_of_mem member
        have form : Form d (stack.length + 1) item.text.toList item
            (' ' :: (spaced items ++ rest)) :=
          legibleItem.form (Nat.not_le.mp stops) endsToken_space
        rw [spaced_cons more, List.append_assoc, List.cons_append,
          run_form form (.list before :: stack) rfl, deliver, resume, run_space (by decide)]
        exact ih legibleItems faultItems deeper (item :: before)

/-- A legible value with more lists inside one another than there is room for is not
read. -/
theorem Value.Legible.run_tooDeep (legible : value.Legible d)
    (deep : depthLimit ≤ value.nesting + stack.length) (rest : List Char) :
    ∃ later, run d .between stack (value.text.toList ++ rest) = .fault .tooDeep later := by
  induction legible generalizing stack rest with
  | int n => exact (Legible.int n).run_full (by simpa [nesting] using deep) rest
  | symbol legible => exact (Legible.symbol legible).run_full (by simpa [nesting] using deep) rest
  | @list items legible ih =>
      by_cases full : depthLimit ≤ stack.length
      · exact (Legible.list legible).run_full full rest
      · have inside : ∃ item ∈ items, depthLimit ≤ item.nesting + (stack.length + 1) := by
          by_contra none
          have bounded : itemsNesting items < depthLimit - stack.length := by
            rw [itemsNesting_lt_iff (by omega)]
            intro item member
            have room : ¬ depthLimit ≤ item.nesting + (stack.length + 1) :=
              fun stops => none ⟨item, member, stops⟩
            omega
          rw [nesting] at deep
          omega
        rw [toList_text_list, List.append_assoc, List.cons_append, run_open (Nat.not_le.mp full)]
        apply run_spaced_tooDeep legible _ inside
        intro item member stops before rest
        have deeper : depthLimit ≤ item.nesting + (Context.list before :: stack).length := stops
        exact ih item member deeper rest

theorem Value.Legible.readOne_tooDeep (legible : value.Legible d)
    (deep : depthLimit ≤ value.nesting) :
    ∃ error, readOne d value.text.toList = .error error ∧ error.kind = .tooDeeplyNested := by
  have outermost : depthLimit ≤ value.nesting + ([] : List Context).length := deep
  obtain ⟨later, failed⟩ := legible.run_tooDeep outermost []
  rw [List.append_nil] at failed
  rw [readOne, first, failed]
  exact ⟨_, rfl, rfl⟩

end TooDeep

/-- Reading gives readable values only, and a readable value is read back from its
text, so reading, printing and reading again gives what was read first. A value that
is not readable only because its lists stand too deep is refused for that reason. -/
theorem print_read_inverse (d : Dialect) :
    (∀ text value, readOne d text = .ok value → value.Readable d) ∧
    (∀ text values, readAll d text = .ok values → ∀ value ∈ values, value.Readable d) ∧
    (∀ text value rest, readNext d text = .ok (some (value, rest)) → value.Readable d) ∧
    (∀ value : Value, value.Readable d → readOne d value.text.toList = .ok value) ∧
    (∀ value : Value, value.Legible d → depthLimit ≤ value.nesting →
      ∃ error, readOne d value.text.toList = .error error ∧ error.kind = .tooDeeplyNested) ∧
    ∀ text value, readOne d text = .ok value → readOne d value.text.toList = .ok value := by
  refine ⟨?_, ?_, ?_, ?_, ?_, ?_⟩
  · intro text value read
    exact readable_of_readOne read
  · intro text values read
    exact readable_of_readAll read
  · intro text value rest read
    exact readable_of_readNext read
  · intro value readable
    exact readable.readOne_text
  · intro value legible deep
    exact legible.readOne_tooDeep deep
  · intro text value read
    exact (readable_of_readOne read).readOne_text

/-- The empty list inside so many others. -/
def Value.nested : Nat → Value
  | 0 => .list []
  | n + 1 => .list [nested n]

theorem Value.nesting_nested (n : Nat) : (nested n).nesting = n := by
  induction n with
  | zero => rfl
  | succ n ih => simp [nested, nesting, itemsNesting, ih]

theorem Value.legible_nested (d : Dialect) (n : Nat) : (nested n).Legible d := by
  induction n with
  | zero => exact .list (by simp)
  | succ n ih => exact .list (by simpa using ih)

/-- The empty list may stand inside 99 others, but not inside 100. -/
theorem print_read_inverse_nested :
    readOne .commented (Value.nested 99).text.toList = .ok (Value.nested 99) ∧
      ∃ error, readOne .commented (Value.nested 100).text.toList = .error error ∧
        error.kind = .tooDeeplyNested := by
  obtain ⟨_, _, _, back, refused, _⟩ := print_read_inverse .commented
  constructor
  · apply back
    refine ⟨Value.legible_nested _ _, ?_⟩
    rw [Value.nesting_nested]
    decide
  · apply refused _ (Value.legible_nested _ _)
    rw [Value.nesting_nested]
    decide

end DynamicLisp
