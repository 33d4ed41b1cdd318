import DynamicLisp.Proofs.Reader.Correspondence

/-!
# The reader accepts exactly its grammar

The three ways of reading a text, each with the texts that it accepts and the
values that it gives for them.
-/

namespace DynamicLisp

open Grammar

variable {d : Dialect} {text rest : List Char} {value : Value}

namespace Reader

theorem first_of_form (form : Form d 0 text value rest) :
    first d (text ++ rest) = .form value rest :=
  run_form form [] rfl

theorem first_of_trivia (skipped : Trivia d text []) : first d text = .nothing := by
  have read : run d .between [] (text ++ []) = _ := run_trivia skipped
  rw [List.append_nil] at read
  exact read

/-- Outside all contexts a closing parenthesis is a failure too. -/
theorem first_cases (d : Dialect) (text : List Char) :
    (∃ read value rest, text = read ++ rest ∧ Form d 0 read value rest) ∨ Trivia d text [] ∨
      ∃ cause rest, first d text = .fault cause rest := by
  cases front d (Nat.zero_le _) text with
  | form form => exact .inl ⟨_, _, _, rfl, form⟩
  | close skipped =>
      rw [first, run_trivia skipped, run_strayClose (by simp)]
      exact .inr (.inr ⟨_, _, rfl⟩)
  | trivia skipped => exact .inr (.inl skipped)
  | fault faults => exact .inr (.inr (faults [] rfl))

theorem first_eq_form_iff :
    first d text = .form value rest ↔ ∃ read, text = read ++ rest ∧ Form d 0 read value rest := by
  constructor
  · intro read
    obtain ⟨_, _, _, rfl, form⟩ | skipped | ⟨_, _, failed⟩ := first_cases d text
    · rw [first_of_form form] at read
      cases read
      exact ⟨_, rfl, form⟩
    · rw [first_of_trivia skipped] at read
      cases read
    · rw [failed] at read
      cases read
  · rintro ⟨read, rfl, form⟩
    exact first_of_form form

theorem first_eq_nothing_iff : first d text = .nothing ↔ Trivia d text [] := by
  constructor
  · intro read
    obtain ⟨_, _, _, rfl, form⟩ | skipped | ⟨_, _, failed⟩ := first_cases d text
    · rw [first_of_form form] at read
      cases read
    · exact skipped
    · rw [failed] at read
      cases read
  · exact first_of_trivia

theorem skip_eq_nil_iff : d.skip text = [] ↔ Trivia d text [] := by
  constructor
  · intro empty
    obtain ⟨before, shape, skipped⟩ := exists_trivia_skip d text
    rw [empty] at shape skipped
    rw [shape, List.append_nil]
    exact skipped
  · intro skipped
    have read := skip_trivia skipped
    rw [List.append_nil] at read
    rw [read]
    rfl

end Reader

theorem readNext_eq_some_iff :
    readNext d text = .ok (some (value, rest)) ↔
      ∃ read, text = read ++ rest ∧ Form d 0 read value rest := by
  rw [← Reader.first_eq_form_iff, readNext]
  split <;> simp_all

theorem readNext_eq_none_iff : readNext d text = .ok none ↔ Trivia d text [] := by
  rw [← Reader.first_eq_nothing_iff, readNext]
  split <;> simp_all

theorem readNext_eq_error_iff {error : ParseError} :
    readNext d text = .error error ↔
      ∃ cause point, Reader.first d text = .fault cause point ∧ error = cause.error text point := by
  rw [readNext]
  cases Reader.first d text with
  | form value rest => simp
  | nothing => simp
  | fault cause point => simp [eq_comm]

theorem readOne_eq_ok_iff :
    readOne d text = .ok value ↔
      ∃ read rest, text = read ++ rest ∧ Form d 0 read value rest ∧ Trivia d rest [] := by
  have split : readOne d text = .ok value ↔
      ∃ rest, Reader.first d text = .form value rest ∧ d.skip rest = [] := by
    unfold readOne
    split
    · next found rest _ =>
      cases left : d.skip rest <;> simp_all
    · simp_all
    · simp_all
  simp only [split, Reader.first_eq_form_iff, Reader.skip_eq_nil_iff]
  constructor
  · rintro ⟨rest, ⟨read, shape, form⟩, skipped⟩
    exact ⟨read, rest, shape, form, skipped⟩
  · rintro ⟨read, rest, shape, form, skipped⟩
    exact ⟨rest, ⟨read, shape, form⟩, skipped⟩

namespace Chunk

theorem read_of_none (read : readNext d text = .ok none) : Chunk.read d text = ⟨[], .done⟩ := by
  rw [Chunk.read]
  split <;> simp_all

theorem read_of_some (read : readNext d text = .ok (some (value, rest))) :
    Chunk.read d text = ⟨value :: (Chunk.read d rest).forms, (Chunk.read d rest).ending⟩ := by
  rw [Chunk.read]
  split <;> simp_all

theorem read_of_error {error : ParseError} (read : readNext d text = .error error) :
    Chunk.read d text = ⟨[], .stopped text error⟩ := by
  rw [Chunk.read]
  split <;> simp_all

/-- Forms at the start of a text are read first, and then what comes after them. -/
theorem read_append_of_forms {values : List Value} (forms : Forms d 0 text values rest) :
    Chunk.read d (text ++ rest) =
      ⟨values ++ (Chunk.read d rest).forms, (Chunk.read d rest).ending⟩ := by
  induction values generalizing text with
  | nil =>
      cases forms
      rfl
  | cons value values ih =>
      cases forms with
      | cons first later =>
          rw [List.append_assoc, read_of_some (readNext_eq_some_iff.mpr ⟨_, rfl, first⟩), ih later]
          rfl

theorem read_of_forms {values : List Value} (forms : Forms d 0 text values rest)
    (skipped : Trivia d rest []) : Chunk.read d (text ++ rest) = ⟨values, .done⟩ := by
  rw [read_append_of_forms forms, read_of_none (readNext_eq_none_iff.mpr skipped),
    List.append_nil]

/-- What is read of a text is forms, and no form follows them. -/
theorem exists_forms_read (d : Dialect) (text : List Char) :
    ∃ read rest, text = read ++ rest ∧ Forms d 0 read (Chunk.read d text).forms rest ∧
      ((readNext d rest = .ok none ∧ (Chunk.read d text).ending = .done) ∨
        ∃ error, readNext d rest = .error error ∧
          (Chunk.read d text).ending = .stopped rest error) := by
  induction text using Chunk.read.induct d with
  | case1 text next =>
      rw [read_of_none next]
      exact ⟨[], text, rfl, .nil, .inl ⟨next, rfl⟩⟩
  | case2 text value rest next _ ih =>
      obtain ⟨read, shape, form⟩ := readNext_eq_some_iff.mp next
      obtain ⟨reads, left, shape', forms, ending⟩ := ih
      rw [read_of_some next]
      rw [shape'] at form shape
      exact ⟨read ++ reads, left, by rw [shape, List.append_assoc], .cons form forms, ending⟩
  | case3 text error next =>
      rw [read_of_error next]
      exact ⟨[], text, rfl, .nil, .inr ⟨error, next, rfl⟩⟩

theorem exists_forms_of_done (done : (Chunk.read d text).ending = .done) :
    ∃ read rest, text = read ++ rest ∧ Forms d 0 read (Chunk.read d text).forms rest ∧
      Trivia d rest [] := by
  obtain ⟨read, rest, shape, forms, ⟨next, -⟩ | ⟨error, -, stopped⟩⟩ := exists_forms_read d text
  · exact ⟨read, rest, shape, forms, readNext_eq_none_iff.mp next⟩
  · rw [done] at stopped
    cases stopped

theorem readNext_of_stopped {error : ParseError}
    (stopped : (Chunk.read d text).ending = .stopped rest error) :
    readNext d rest = .error error := by
  obtain ⟨read, left, -, -, ⟨-, done⟩ | ⟨error', next, stopped'⟩⟩ := exists_forms_read d text
  · rw [stopped] at done
    cases done
  · rw [stopped] at stopped'
    cases stopped'
    exact next

end Chunk

theorem readAll_eq_ok_iff {values : List Value} :
    readAll d text = .ok values ↔
      ∃ read rest, text = read ++ rest ∧ Forms d 0 read values rest ∧ Trivia d rest [] := by
  constructor
  · intro all
    rw [readAll] at all
    cases ending : (Chunk.read d text).ending with
    | stopped rest error =>
        simp only [ending] at all
        cases all
    | done =>
        simp only [ending] at all
        rw [← Except.ok.inj all]
        exact Chunk.exists_forms_of_done ending
  · rintro ⟨read, rest, rfl, forms, skipped⟩
    rw [readAll, Chunk.read_of_forms forms skipped]

/-- The first form of a text is read exactly where the text starts with a form of the
grammar, and its value is the value that the form denotes. There is no form exactly
in trivia. A text that holds one form, or any number of forms, may end with trivia. -/
theorem reader_accepts_grammar (d : Dialect) (text : List Char) :
    (∀ value rest, readNext d text = .ok (some (value, rest)) ↔
      ∃ read, text = read ++ rest ∧ read ≠ [] ∧ Form d 0 read value rest) ∧
    (readNext d text = .ok none ↔ Trivia d text []) ∧
    (∀ value, readOne d text = .ok value ↔
      ∃ read rest, text = read ++ rest ∧ Form d 0 read value rest ∧ Trivia d rest []) ∧
    ∀ values, readAll d text = .ok values ↔
      ∃ read rest, text = read ++ rest ∧ Forms d 0 read values rest ∧ Trivia d rest [] := by
  refine ⟨?_, readNext_eq_none_iff, fun _ => readOne_eq_ok_iff, fun _ => readAll_eq_ok_iff⟩
  intro value rest
  rw [readNext_eq_some_iff]
  constructor
  · rintro ⟨read, shape, form⟩
    exact ⟨read, shape, form.nonempty, form⟩
  · rintro ⟨read, shape, -, form⟩
    exact ⟨read, shape, form⟩

end DynamicLisp
