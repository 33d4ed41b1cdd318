import DynamicLisp.Proofs.Reader.Acceptance

/-!
# Reading a text that goes on

A line feed ends every atom and every comment. So what is read from a text that
ends with a line feed is read from every longer text too, and the forms of a text
can be read up to a line end first and from there on later. Trivia between the two
parts may be dropped.
-/

namespace DynamicLisp

open Grammar

variable {d : Dialect} {text rest more : List Char} {value : Value}

namespace Reader

variable {mode : Mode} {stack : List Context}

/-- A line feed leads out of every token, or it shows that the form is complete. -/
theorem step_newline (d : Dialect) (mode : Mode) (stack : List Context) :
    (∃ value, step d mode stack '\n' = .ended value) ∨
      ∃ later, step d mode stack '\n' = .more .between later := by
  have between (stack : List Context) : stepBetween d stack '\n' = .more .between stack := by
    unfold stepBetween
    rw [if_pos (by decide)]
  cases mode with
  | between => exact .inr ⟨stack, between stack⟩
  | comment => exact .inr ⟨stack, rfl⟩
  | atom chars =>
      have ends : d.isDelimiter '\n' = true :=
        isDelimiter_iff.mpr (spaces_subset_delimiters (by decide))
      rw [step, if_pos ends]
      cases deliver (Atom.value chars.reverse) stack with
      | complete value => exact .inl ⟨value, rfl⟩
      | pending later => exact .inr ⟨later, between later⟩

/-- A form that is complete before the end of a line is the same form whatever
follows. -/
theorem run_form_line (read : run d mode stack (text ++ ['\n']) = .form value rest) :
    ∃ left, rest = left ++ ['\n'] ∧
      ∀ more, run d mode stack (text ++ '\n' :: more) = .form value (left ++ '\n' :: more) := by
  induction text generalizing mode stack with
  | nil =>
      rw [List.nil_append, run] at read
      obtain ⟨found, ended⟩ | ⟨later, moved⟩ := step_newline d mode stack
      · simp only [ended] at read
        cases read
        refine ⟨[], rfl, ?_⟩
        intro more
        rw [List.nil_append, run, ended]
      · simp only [moved] at read
        cases later <;> cases read
  | cons c text ih =>
      rw [List.cons_append, run] at read
      cases taken : step d mode stack c with
      | more mode' stack' =>
          simp only [taken] at read
          obtain ⟨left, shape, stable⟩ := ih read
          refine ⟨left, shape, ?_⟩
          intro more
          rw [List.cons_append, run, taken]
          exact stable more
      | closed found =>
          simp only [taken] at read
          cases read
          refine ⟨text, rfl, ?_⟩
          intro more
          rw [List.cons_append, run, taken]
      | ended found =>
          simp only [taken] at read
          cases read
          refine ⟨c :: text, rfl, ?_⟩
          intro more
          rw [List.cons_append, run, taken]
      | failed cause =>
          simp only [taken] at read
          cases read
      | failedAfter cause =>
          simp only [taken] at read
          cases read

end Reader

theorem Grammar.Trivia.of_spaces (separates : ∀ c ∈ text, c ∈ spaces) : Trivia d text rest := by
  induction text with
  | nil => exact .nil
  | cons c text ih =>
      apply Trivia.space (separates c List.mem_cons_self)
      apply ih
      intro other member
      exact separates other (List.mem_cons_of_mem c member)

/-- A line feed at the end of trivia ends the last comment. -/
theorem Grammar.Trivia.of_line (skipped : Trivia d text rest)
    (ends : ∀ c ∈ text.getLast?, c = '\n') (more : List Char) : Trivia d text more := by
  induction skipped with
  | nil => exact .nil
  | @space c text rest space _ ih =>
      apply Trivia.space space
      apply ih
      intro last member
      apply ends last
      rw [List.getLast?_cons, Option.mem_def.mp member]
      rfl
  | @comment line text rest enabled unbroken line_ends _ ih =>
      cases text with
      | nil =>
          rw [List.append_nil] at ends
          have member := List.getLast_mem (List.cons_ne_nil ';' line)
          rw [ends _ (List.getLast?_eq_some_getLast _)] at member
          rcases List.mem_cons.mp member with same | inside
          · exact absurd same (by decide)
          · exact absurd inside unbroken
      | cons c text =>
          refine .comment enabled unbroken line_ends ?_
          apply ih
          intro last member
          apply ends last
          rw [List.getLast?_append, Option.mem_def.mp member]
          rfl

theorem readNext_some_line
    (read : readNext d (text ++ ['\n']) = .ok (some (value, rest))) :
    ∃ left, rest = left ++ ['\n'] ∧
      ∀ more, readNext d (text ++ '\n' :: more) = .ok (some (value, left ++ '\n' :: more)) := by
  rw [readNext_eq_some_iff, ← Reader.first_eq_form_iff] at read
  obtain ⟨left, shape, stable⟩ := Reader.run_form_line read
  refine ⟨left, shape, ?_⟩
  intro more
  rw [readNext_eq_some_iff, ← Reader.first_eq_form_iff]
  exact stable more

/-- The text that an ending leaves unread. -/
def Ending.unread : Ending → List Char
  | .done => []
  | .stopped rest _ => rest

/-- Two endings that differ at most in trivia before the text that is left unread.
The second one has fewer of them. -/
inductive Ending.Trims (d : Dialect) : Ending → Ending → Prop where
  | done : Trims d .done .done
  | stopped {before rest error error'} (skipped : Trivia d before rest)
      (kind : ParseError.kind error = ParseError.kind error') :
      Trims d (.stopped (before ++ rest) error) (.stopped rest error')

namespace Ending.Trims

theorem refl (d : Dialect) (ending : Ending) : Trims d ending ending := by
  cases ending with
  | done => exact .done
  | stopped rest error => exact .stopped .nil rfl

theorem trans {first second third : Ending} (h : Trims d first second)
    (h' : Trims d second third) : Trims d first third := by
  cases h with
  | done => exact h'
  | stopped skipped kind =>
      cases h' with
      | stopped skipped' kind' =>
          rw [← List.append_assoc]
          exact .stopped (skipped.append skipped') (kind.trans kind')

end Ending.Trims

/-- The kind of an error does not depend on where the failure is. -/
theorem Reader.kind_error (cause : Reader.Cause) (text rest text' rest' : List Char) :
    (cause.error text rest).kind = (cause.error text' rest').kind := by
  cases cause <;> rfl

namespace Chunk

theorem read_trivia (skipped : Trivia d text more) :
    (Chunk.read d (text ++ more)).forms = (Chunk.read d more).forms ∧
      (Chunk.read d (text ++ more)).ending.Trims d (Chunk.read d more).ending := by
  have same : Reader.first d (text ++ more) = Reader.first d more := Reader.run_trivia skipped
  cases found : Reader.first d more with
  | form value rest =>
      have next : readNext d more = .ok (some (value, rest)) := by rw [readNext, found]
      have next' : readNext d (text ++ more) = .ok (some (value, rest)) := by
        rw [readNext, same, found]
      rw [read_of_some next, read_of_some next']
      exact ⟨rfl, .refl d _⟩
  | nothing =>
      have next : readNext d more = .ok none := by rw [readNext, found]
      have next' : readNext d (text ++ more) = .ok none := by rw [readNext, same, found]
      rw [read_of_none next, read_of_none next']
      exact ⟨rfl, .done⟩
  | fault cause rest =>
      have next : readNext d more = .error (cause.error more rest) := by rw [readNext, found]
      have next' : readNext d (text ++ more) = .error (cause.error (text ++ more) rest) := by
        rw [readNext, same, found]
      rw [read_of_error next, read_of_error next']
      exact ⟨rfl, .stopped skipped (Reader.kind_error cause _ _ _ _)⟩

/-- The forms of a text are the forms up to the end of a line and then the forms of
what was left unread there. -/
theorem read_append_line (d : Dialect) (text more : List Char) :
    (Chunk.read d (text ++ '\n' :: more)).forms =
        (Chunk.read d (text ++ ['\n'])).forms ++
          (Chunk.read d ((Chunk.read d (text ++ ['\n'])).ending.unread ++ more)).forms ∧
      (Chunk.read d (text ++ '\n' :: more)).ending.Trims d
        (Chunk.read d ((Chunk.read d (text ++ ['\n'])).ending.unread ++ more)).ending := by
  induction size : text.length using Nat.strongRecOn generalizing text with
  | ind size ih =>
      subst size
      cases next : readNext d (text ++ ['\n']) with
      | error error =>
          have whole : text ++ ['\n'] ++ more = text ++ '\n' :: more := by simp
          rw [read_of_error next, Ending.unread, whole]
          exact ⟨rfl, .refl d _⟩
      | ok found =>
          obtain _ | ⟨value, rest⟩ := found
          · have skipped : Trivia d (text ++ ['\n']) more :=
              (readNext_eq_none_iff.mp next).of_line (by simp) more
            rw [read_of_none next]
            simpa [Ending.unread] using read_trivia skipped
          · obtain ⟨left, rfl, stable⟩ := readNext_some_line next
            have shorter : left.length < text.length := by
              simpa using length_lt_of_readNext next
            obtain ⟨forms, ending⟩ := ih left.length shorter left rfl
            rw [read_of_some next, read_of_some (stable more)]
            exact ⟨by rw [forms, List.cons_append], ending⟩

end Chunk

end DynamicLisp
