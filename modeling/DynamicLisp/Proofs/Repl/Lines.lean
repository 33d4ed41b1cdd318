import DynamicLisp.Proofs.Reader.Extension
import DynamicLisp.Registry.Standard
import DynamicLisp.Repl

/-!
# Typing a program line by line

The loop evaluates what each line completes and keeps the text of the open form.
However the forms of a program are spread over lines, it does what evaluating the
whole text at once does.
-/

namespace DynamicLisp

open Grammar

/-- Forms that come in two parts are evaluated from left to right all the same. -/
theorem Registry.evalForms_append (registry : Registry) (f : FrameId) (first second : List Value)
    (s : State) :
    registry.evalForms f (first ++ second) s =
      ((registry.evalForms f first s).1 ++
          (registry.evalForms f second (registry.evalForms f first s).2).1,
        (registry.evalForms f second (registry.evalForms f first s).2).2) := by
  induction first generalizing s with
  | nil => rfl
  | cons form first ih =>
      simp only [List.cons_append, evalForms, ih]

/-- Whether a text ended at a form that no further text can complete. -/
def Ending.isMalformed : Ending → Bool
  | .done => false
  | .stopped _ error => !error.isIncomplete

theorem Ending.isMalformed_stopped_eq_false {rest : List Char} {error : ParseError} :
    (Ending.stopped rest error).isMalformed = false ↔ error.isIncomplete = true := by
  simp [isMalformed]

namespace Repl

/-- The text of lines, each ended by a line feed. -/
def typed (inputs : List (List Char)) : List Char :=
  inputs.flatMap (· ++ ['\n'])

/-- The loop takes a line as program text: it skips the line only if it is made of
spaces, takes it for no command and does not find it malformed. -/
inductive Reads (input : List Char) (repl : Repl) : Prop where
  | blank (closed : repl.pending = []) (skipped : Command.ofLine input = .blank)
      (separates : ∀ c ∈ input, c ∈ spaces)
  | text (source : repl.pending = [] → Command.ofLine input = .source)
      (readable :
        (Chunk.read .commented (repl.pending ++ input ++ ['\n'])).ending.isMalformed = false)

/-- The loop takes line after line as program text. -/
def ReadsAll (registry : Registry) : List (List Char) → Repl → Prop
  | [], _ => True
  | input :: inputs, repl =>
    Reads input repl ∧ ReadsAll registry inputs (repl.line registry input).repl

/-- What the loop may keep: nothing, or text that opens a form. -/
def Settled (pending : List Char) : Prop :=
  pending = [] ∨ ∃ error, readNext .commented pending = .error error ∧ error.isIncomplete = true

namespace Settled

variable {pending : List Char}

theorem forms_eq_nil (settled : Settled pending) : (Chunk.read .commented pending).forms = [] := by
  rcases settled with rfl | ⟨error, next, _⟩
  · rw [Chunk.read_of_none rfl]
  · rw [Chunk.read_of_error next]

/-- The ending of a text tells what is kept of it. -/
theorem of_trims (settled : Settled pending) {ending : Ending}
    (trims : ending.Trims .commented (Chunk.read .commented pending).ending) :
    (ending = .done ↔ pending = []) ∧
      (pending ≠ [] → ∃ before error, ending = .stopped (before ++ pending) error ∧
        error.isIncomplete = true ∧ Trivia .commented before pending) := by
  rcases settled with rfl | ⟨error, next, incomplete⟩
  · rw [Chunk.read_of_none rfl] at trims
    cases trims
    simp
  · have nonempty : pending ≠ [] := by
      rintro rfl
      cases next
    rw [Chunk.read_of_error next] at trims
    cases trims with
    | @stopped before _ error' _ skipped kind =>
        refine ⟨by simp [nonempty], fun _ => ⟨before, error', rfl, ?_, skipped⟩⟩
        rw [ParseError.isIncomplete, kind]
        exact incomplete

end Settled

/-- Between two points of the loop `text` was typed, which completed `forms`: the
state is the one that their evaluation leaves, and whatever comes next is read after
the text that is kept as it is read after the text that was typed. -/
structure Advances (registry : Registry) (before : Repl) (text : List Char) (forms : List Value)
    (after : Repl) : Prop where
  state : (registry.evalForms frame forms before.state).2 = after.state
  forms : ∀ more, (Chunk.read .commented (before.pending ++ text ++ more)).forms =
    forms ++ (Chunk.read .commented (after.pending ++ more)).forms
  ending : ∀ more, (Chunk.read .commented (before.pending ++ text ++ more)).ending.Trims .commented
    (Chunk.read .commented (after.pending ++ more)).ending

namespace Advances

variable {registry : Registry} {first second third : Repl}

theorem refl (registry : Registry) (repl : Repl) : Advances registry repl [] [] repl := by
  refine ⟨rfl, ?_, ?_⟩
  · intro more
    rw [List.append_nil, List.nil_append]
  · intro more
    rw [List.append_nil]
    exact .refl _ _

theorem trans {text text' : List Char} {forms forms' : List Value}
    (h : Advances registry first text forms second)
    (h' : Advances registry second text' forms' third) :
    Advances registry first (text ++ text') (forms ++ forms') third := by
  have split (more : List Char) : first.pending ++ (text ++ text') ++ more =
      first.pending ++ text ++ (text' ++ more) := by simp only [List.append_assoc]
  refine ⟨?_, ?_, ?_⟩
  · rw [registry.evalForms_append, h.state, h'.state]
  · intro more
    rw [split, h.forms, ← List.append_assoc, h'.forms, List.append_assoc]
  · intro more
    rw [split]
    refine (h.ending (text' ++ more)).trans ?_
    rw [← List.append_assoc]
    exact h'.ending more

end Advances

section Steps

variable {registry : Registry} {input : List Char} {repl : Repl}

theorem settled_unread {text : List Char}
    (readable : (Chunk.read .commented text).ending.isMalformed = false) :
    Settled (Chunk.read .commented text).ending.unread := by
  cases ending : (Chunk.read .commented text).ending with
  | done => exact .inl rfl
  | stopped rest error =>
      rw [ending, Ending.isMalformed_stopped_eq_false] at readable
      exact .inr ⟨error, Chunk.readNext_of_stopped ending, readable⟩

/-- A line that is not malformed leaves exactly what is unread at its end. -/
theorem feed_eq
    (readable :
      (Chunk.read .commented (repl.pending ++ input ++ ['\n'])).ending.isMalformed = false) :
    repl.feed registry input =
      let chunk := Chunk.read .commented (repl.pending ++ input ++ ['\n'])
      let result := registry.evalForms frame chunk.forms repl.state
      ⟨result.1.map Outcome.report, ⟨chunk.ending.unread, result.2⟩, false⟩ := by
  rw [feed, Registry.evalChunk]
  cases ending : (Chunk.read .commented (repl.pending ++ input ++ ['\n'])).ending with
  | done =>
      simp only [ending]
      rfl
  | stopped rest error =>
      rw [ending, Ending.isMalformed_stopped_eq_false] at readable
      simp only [ending, readable, if_true]
      rfl

/-- One line. -/
theorem Reads.advances (reads : Reads input repl) (settled : Settled repl.pending) :
    ∃ forms after, repl.line registry input =
        ⟨(registry.evalForms frame forms repl.state).1.map Outcome.report, after, false⟩ ∧
      Advances registry repl (input ++ ['\n']) forms after ∧ Settled after.pending := by
  cases reads with
  | blank closed skipped separates =>
      have trivia (more : List Char) : Trivia .commented (input ++ ['\n']) more := by
        apply Trivia.of_spaces
        intro c member
        rcases List.mem_append.mp member with inside | last
        · exact separates c inside
        · rw [List.mem_singleton.mp last]
          decide
      refine ⟨[], repl, ?_, ⟨rfl, ?_, ?_⟩, settled⟩
      · simp only [line, closed, List.isEmpty_nil, if_true, skipped]
        rfl
      · intro more
        rw [closed]
        exact (Chunk.read_trivia (trivia more)).1
      · intro more
        rw [closed]
        exact (Chunk.read_trivia (trivia more)).2
  | text source readable =>
      have fed : repl.line registry input = repl.feed registry input := by
        unfold line
        split
        · next closed => rw [source (List.isEmpty_iff.mp closed)]
        · rfl
      refine ⟨_, _, fed.trans (feed_eq readable), ⟨rfl, ?_, ?_⟩, settled_unread readable⟩
      · intro more
        simpa using (Chunk.read_append_line .commented (repl.pending ++ input) more).1
      · intro more
        simpa using (Chunk.read_append_line .commented (repl.pending ++ input) more).2

/-- All lines. -/
theorem ReadsAll.advances {inputs : List (List Char)} (reads : ReadsAll registry inputs repl)
    (settled : Settled repl.pending) :
    ∃ forms after, repl.run registry (inputs.map .line) =
        ((registry.evalForms frame forms repl.state).1.map Outcome.report, after) ∧
      Advances registry repl (typed inputs) forms after ∧ Settled after.pending := by
  induction inputs generalizing repl with
  | nil => exact ⟨[], repl, rfl, .refl registry repl, settled⟩
  | cons input inputs ih =>
      obtain ⟨forms, next, taken, advanced, settled⟩ := reads.1.advances settled
      have later := reads.2
      rw [taken] at later
      obtain ⟨forms', after, taken', advanced', settled'⟩ := ih later settled
      refine ⟨forms ++ forms', after, ?_, advanced.trans advanced', settled'⟩
      simp only [List.map_cons, run, take, taken, taken', registry.evalForms_append,
        advanced.state, List.map_append]
      rfl

end Steps

/-- The loop, given a program line by line, prints the outcomes that evaluating the
whole text gives, in the same order, and ends in the same state. The text is read to
its end exactly when the loop keeps nothing; otherwise its last form is incomplete,
and what the loop keeps is that form without some of the trivia before it. -/
theorem run_lines_eq_evalChunk {registry : Registry} {inputs : List (List Char)} {s : State}
    (reads : ReadsAll registry inputs ⟨[], s⟩) :
    ∃ outcomes ending s' pending,
      registry.evalChunk frame (inputs.flatMap (· ++ ['\n'])) s = (outcomes, ending, s') ∧
      run registry (inputs.map .line) ⟨[], s⟩ = (outcomes.map Outcome.report, ⟨pending, s'⟩) ∧
      (ending = .done ↔ pending = []) ∧
      (pending ≠ [] → ∃ before error, ending = .stopped (before ++ pending) error ∧
        error.isIncomplete = true ∧ Trivia .commented before pending) := by
  obtain ⟨forms, ⟨pending, s'⟩, taken, advanced, settled⟩ := reads.advances (.inl rfl)
  have whole : [] ++ typed inputs ++ [] = typed inputs := List.append_nil _
  have read := advanced.forms []
  have trims := advanced.ending []
  rw [whole, List.append_nil, settled.forms_eq_nil, List.append_nil] at read
  rw [whole, List.append_nil] at trims
  refine ⟨_, (Chunk.read .commented (typed inputs)).ending, s', pending, ?_, taken,
    settled.of_trims trims⟩
  have final : (registry.evalForms frame forms s).2 = s' := advanced.state
  rw [← typed, Registry.evalChunk, read, ← final]

/-- A blank line, a quoted list that is cut inside a comment, and a form that stays
open. -/
def cutLines : List (List Char) := [[], "'(a ; b".toList, ") 1 (".toList]

theorem read_after_list :
    Chunk.read .commented " 1 (\n".toList =
      ⟨[.int 1], .stopped " (\n".toList ⟨.incomplete, "Unexpected end of input", none⟩⟩ := by
  have one : readNext .commented " 1 (\n".toList = .ok (some (.int 1, " (\n".toList)) := rfl
  rw [Chunk.read_of_some one, Chunk.read_of_error rfl]
  rfl

theorem readsAll_cutLines : ReadsAll .standard cutLines ⟨[], .initial⟩ := by
  have cut : Chunk.read .commented ([] ++ "'(a ; b".toList ++ ['\n']) =
      ⟨[], .stopped "'(a ; b\n".toList ⟨.incomplete, "Unexpected end of input", none⟩⟩ :=
    Chunk.read_of_error rfl
  have quoted : readNext .commented ("'(a ; b\n".toList ++ ") 1 (".toList ++ ['\n']) =
      .ok (some (.quoted (.list [.symbol "a"]), " 1 (\n".toList)) := rfl
  have second : (line .standard "'(a ; b".toList ⟨[], .initial⟩).repl =
      ⟨"'(a ; b\n".toList, .initial⟩ := by
    show (feed .standard "'(a ; b".toList ⟨[], .initial⟩).repl = _
    rw [feed, Registry.evalChunk, cut]
    rfl
  refine ⟨.blank rfl rfl (by simp), .text (fun _ => rfl) ?_, ?_, trivial⟩
  · show (Chunk.read .commented ([] ++ "'(a ; b".toList ++ ['\n'])).ending.isMalformed = false
    rw [cut]
    rfl
  · show Reads ") 1 (".toList (line .standard "'(a ; b".toList ⟨[], .initial⟩).repl
    rw [second]
    refine .text (fun closed => nomatch closed) ?_
    rw [Chunk.read_of_some quoted, read_after_list]
    rfl

theorem run_lines_eq_evalChunk_cutLines :
    ReadsAll .standard cutLines ⟨[], .initial⟩ ∧
      ∃ pending s', run .standard (cutLines.map .line) ⟨[], .initial⟩ =
          (["=> (a)", "=> 1"], ⟨pending, s'⟩) ∧
        pending ≠ [] := by
  obtain ⟨outcomes, ending, s', pending, evaluated, taken, done, _⟩ :=
    run_lines_eq_evalChunk readsAll_cutLines
  have quoted : readNext .commented (cutLines.flatMap (· ++ ['\n'])) =
      .ok (some (.quoted (.list [.symbol "a"]), " 1 (\n".toList)) := rfl
  rw [Registry.evalChunk, Chunk.read_of_some quoted, read_after_list] at evaluated
  cases evaluated
  refine ⟨readsAll_cutLines, pending, _, taken, fun absent => ?_⟩
  cases done.mpr absent

end Repl

end DynamicLisp
