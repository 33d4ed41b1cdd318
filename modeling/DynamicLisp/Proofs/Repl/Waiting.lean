import DynamicLisp.Proofs.Reader.Continuation
import DynamicLisp.Proofs.Repl.Lines

/-!
# Waiting for the rest of a form

The loop keeps text that is found incomplete and drops text that is malformed. What
it keeps can always be completed, so it never waits in vain, and what it drops for a
closing parenthesis without a list is malformed however the text goes on.
-/

namespace DynamicLisp

variable {d : Dialect} {text rest : List Char} {error : ParseError}

/-- Text after a line with a closing parenthesis that belongs to no list changes
neither the forms before it nor the failure. -/
theorem Chunk.read_append_of_strayClose
    (stopped : (Chunk.read d (text ++ ['\n'])).ending = .stopped rest error)
    (stray : error.kind = .unexpectedClose) (more : List Char) :
    (Chunk.read d (text ++ '\n' :: more)).forms = (Chunk.read d (text ++ ['\n'])).forms ∧
      ∃ rest' error', (Chunk.read d (text ++ '\n' :: more)).ending = .stopped rest' error' ∧
        error'.kind = .unexpectedClose := by
  obtain ⟨forms, trims⟩ := Chunk.read_append_line d text more
  obtain ⟨error', failed, kind, _⟩ :=
    readNext_append_of_strayClose (Chunk.readNext_of_stopped stopped) stray more
  rw [stopped, Ending.unread, Chunk.read_of_error failed] at forms trims
  refine ⟨by rw [forms, List.append_nil], ?_⟩
  generalize (Chunk.read d (text ++ '\n' :: more)).ending = ending at trims ⊢
  cases trims with
  | stopped _ same => exact ⟨_, _, rfl, same.trans kind⟩

namespace Repl

variable {registry : Registry} {repl : Repl}

theorem Settled.completable {pending : List Char} (settled : Settled pending) :
    pending = [] ∨ ∃ more form, readOne .commented (pending ++ more) = .ok form := by
  rcases settled with empty | ⟨error, failed, incomplete⟩
  · exact .inl empty
  · exact .inr (exists_completion (readOne_of_readNext_error failed)
      (of_decide_eq_true incomplete))

theorem settled_feed (registry : Registry) (input : List Char) (repl : Repl) :
    Settled (repl.feed registry input).repl.pending := by
  rw [feed, Registry.evalChunk]
  cases ending : (Chunk.read .commented (repl.pending ++ input ++ ['\n'])).ending with
  | done => exact .inl rfl
  | stopped rest error =>
      simp only
      split
      · next incomplete => exact .inr ⟨error, Chunk.readNext_of_stopped ending, incomplete⟩
      · exact .inl rfl

/-- One line. A command leaves the text that is kept as it is. -/
theorem settled_line (input : List Char) (settled : Settled repl.pending) :
    Settled (repl.line registry input).repl.pending := by
  unfold line
  split
  · cases Command.ofLine input with
    | source => exact settled_feed registry input repl
    | blank | help | listing | quit => exact settled
  · exact settled_feed registry input repl

/-- One input. -/
theorem settled_take (input : Input) (settled : Settled repl.pending) :
    Settled (repl.take registry input).repl.pending := by
  cases input with
  | line text => exact settled_line text settled
  | interrupt => exact .inl rfl
  | failure => exact settled

/-- All inputs. -/
theorem settled_run (inputs : List Input) (settled : Settled repl.pending) :
    Settled (repl.run registry inputs).2.pending := by
  induction inputs generalizing repl with
  | nil => exact settled
  | cons input inputs ih =>
      have next : Settled (repl.take registry input).repl.pending := settled_take input settled
      rw [run]
      split
      · exact next
      · exact ih next

/-- Text that is found incomplete can be completed, and a closing parenthesis without a
list fails every longer text at the same place. So whatever the loop waits for can
come, and what it drops for such a parenthesis no continuation could have saved. -/
theorem incomplete_extends_strayClose_persists (d : Dialect) (text : List Char) :
    (∀ error, readOne d text = .error error → error.isIncomplete = true →
      ∃ more form, readOne d (text ++ more) = .ok form) ∧
    (∀ error, readNext d text = .error error → error.kind = .unexpectedClose →
      ∀ more, ∃ error', readNext d (text ++ more) = .error error' ∧
        error'.kind = .unexpectedClose ∧ error'.message = error.message) ∧
    (∀ registry (inputs : List Input) s,
      (run registry inputs ⟨[], s⟩).2.pending = [] ∨
        ∃ more form,
          readOne .commented ((run registry inputs ⟨[], s⟩).2.pending ++ more) = .ok form) ∧
    ∀ rest error, (Chunk.read d (text ++ ['\n'])).ending = .stopped rest error →
      error.kind = .unexpectedClose →
      ∀ more, (Chunk.read d (text ++ '\n' :: more)).forms = (Chunk.read d (text ++ ['\n'])).forms ∧
        ∃ rest' error', (Chunk.read d (text ++ '\n' :: more)).ending = .stopped rest' error' ∧
          error'.kind = .unexpectedClose := by
  refine ⟨?_, ?_, ?_, ?_⟩
  · intro error failed incomplete
    exact exists_completion failed (of_decide_eq_true incomplete)
  · intro error failed stray more
    exact readNext_append_of_strayClose failed stray more
  · intro registry inputs s
    exact (settled_run inputs (.inl rfl)).completable
  · intro rest error stopped stray more
    exact Chunk.read_append_of_strayClose stopped stray more

/-- A quote mark waits for its form, and a closing parenthesis in its place belongs to
no list. -/
theorem incomplete_extends_strayClose_persists_quote :
    (∃ more form, readOne .commented ("(a '".toList ++ more) = .ok form) ∧
      ∀ more, ∃ error, readNext .commented ("(a ')".toList ++ more) = .error error ∧
        error.kind = .unexpectedClose ∧ error.message = "Unexpected ')' at position 4" := by
  constructor
  · exact (incomplete_extends_strayClose_persists .commented "(a '".toList).1 _ rfl rfl
  · exact (incomplete_extends_strayClose_persists .commented "(a ')".toList).2.1 _ rfl rfl

end Repl

end DynamicLisp
