import DynamicLisp.Proofs.Reader.Pauses
import Mathlib.Data.List.TakeWhile

/-!
# Comments can be deleted first

A dialect with comments knows them in two places: they are trivia, and a semicolon
ends an atom. Both come to the same as deleting the comments from the text and reading
what is left in the dialect without them. A comment leaves the line feed at its end in
place, or the end of the text, so no two tokens are joined.
-/

namespace DynamicLisp

open Grammar

namespace Text

/-- What follows the rest of a line: a text that starts with a line feed, or nothing. -/
def afterLine (text : List Char) : List Char := text.dropWhile (· != '\n')

/-- A text without its comments: every semicolon is deleted together with what follows
it on its line. The line feed stays. -/
def strip : List Char → List Char
  | [] => []
  | c :: text => if c = ';' then strip (afterLine text) else c :: strip text
termination_by text => text.length
decreasing_by
  · exact Nat.lt_succ_of_le (List.dropWhile_sublist _).length_le
  · exact Nat.lt_succ_self _

theorem strip_nil : strip [] = [] := by
  rw [strip]

theorem strip_semicolon (text : List Char) : strip (';' :: text) = strip (afterLine text) := by
  rw [strip, if_pos rfl]

theorem strip_cons {c : Char} (other : c ≠ ';') (text : List Char) :
    strip (c :: text) = c :: strip text := by
  rw [strip, if_neg other]

-- The comment stands right after an atom and before a closing parenthesis.
example : strip "(a;b)\n)".toList = "(a\n)".toList := by
  decide +kernel

theorem head_afterLine (text : List Char) : ∀ c ∈ (afterLine text).head?, c = '\n' := by
  intro c member
  have stops := List.head?_dropWhile_not (· != '\n') text
  rw [afterLine, Option.mem_def] at member
  rw [member] at stops
  simpa using stops

/-- The rest of a line has no line feed in it. -/
theorem exists_line (text : List Char) : ∃ line, '\n' ∉ line ∧ text = line ++ afterLine text := by
  refine ⟨text.takeWhile (· != '\n'), ?_, (List.takeWhile_append_dropWhile ..).symm⟩
  intro member
  simpa using List.mem_takeWhile_imp member

/-- Deleting a comment leaves the line feed at its end in place. -/
theorem head_strip_afterLine (text : List Char) :
    ∀ c ∈ (strip (afterLine text)).head?, c = '\n' := by
  have ends := head_afterLine text
  cases shape : afterLine text with
  | nil => simp [strip_nil]
  | cons c rest =>
      rw [shape] at ends
      obtain rfl : c = '\n' := ends c rfl
      simp [strip_cons]

end Text

open Text

namespace Reader

variable {c : Char}

/-- What was found in a text, with the comments deleted from the text after it. -/
def Reading.strip : Reading → Reading
  | .form value rest => .form value (Text.strip rest)
  | .nothing => .nothing
  | .fault cause rest => .fault cause (Text.strip rest)

section Semicolons

theorem run_comment_afterLine (stack : List Context) (text : List Char) :
    run .commented .comment stack text = run .commented .between stack (afterLine text) := by
  obtain ⟨line, unbroken, shape⟩ := exists_line text
  conv_lhs => rw [shape]
  exact run_comment unbroken (head_afterLine text)

/-- A semicolon ends the token before it, and reading goes on after the comment. -/
theorem run_commented_semicolon (mode : Mode) (stack : List Context) (text : List Char) :
    run .commented mode stack (';' :: text) =
      match settle mode stack with
      | .complete value => .form value (';' :: text)
      | .pending later => run .commented .between later (afterLine text) := by
  have begins (stack : List Context) : run .commented .between stack (';' :: text) =
      run .commented .between stack (afterLine text) := by
    have enabled : Dialect.commented.comments = true := rfl
    rw [run_semicolon enabled, run_comment_afterLine]
  cases mode with
  | between => exact begins stack
  | comment => exact run_comment_afterLine stack text
  | atom chars =>
      have ends : Dialect.commented.isDelimiter ';' = true := rfl
      rw [settle, run, step, if_pos ends]
      cases deliver (Atom.value chars.reverse) stack with
      | complete value => rfl
      | pending later => exact begins later

theorem skip_commented_semicolon (text : List Char) :
    Dialect.commented.skip (';' :: text) = Dialect.commented.skip (afterLine text) := by
  obtain ⟨line, unbroken, shape⟩ := exists_line text
  have skipped : Dialect.commented.skipFrom true (line ++ afterLine text) =
      Dialect.commented.skip (afterLine text) := skipFrom_comment unbroken (head_afterLine text)
  rw [← shape] at skipped
  exact skipped

end Semicolons

section Stripped

theorem startsComment_eq_false (other : c ≠ ';') (d : Dialect) : d.startsComment c = false := by
  simp [Dialect.startsComment, other]

/-- Whether there are comments matters at semicolons only. -/
theorem step_plain_eq (other : c ≠ ';') (mode : Mode) (stack : List Context) :
    step .plain mode stack c = step .commented mode stack c := by
  have between (stack : List Context) :
      stepBetween .plain stack c = stepBetween .commented stack c := by
    simp only [stepBetween, startsComment_eq_false other]
  cases mode with
  | between => exact between stack
  | comment => rfl
  | atom chars =>
      simp only [step, Dialect.isDelimiter, startsComment_eq_false other, between]

theorem finish_strip (mode : Mode) (stack : List Context) :
    (finish mode stack).strip = finish mode stack := by
  unfold finish
  repeat' split
  all_goals simp [Reading.strip, unfinished, strip_nil]

/-- Reading without comments finds in the stripped text what reading with comments finds
in the text. -/
theorem run_strip (mode : Mode) (stack : List Context) (text : List Char) :
    run .plain mode stack (strip text) = (run .commented mode stack text).strip := by
  induction text using strip.induct generalizing mode stack with
  | case1 => rw [strip_nil, run, run, finish_strip]
  | case2 text ih =>
      -- On both sides the token ends here: at the semicolon, and at what the comment leaves.
      rw [strip_semicolon, run_settle (head_strip_afterLine text), run_commented_semicolon]
      cases settle mode stack with
      | complete value => rw [resume, Reading.strip, strip_semicolon]
      | pending later => exact ih .between later
  | case3 c text other ih =>
      rw [strip_cons other, run, run, step_plain_eq other]
      cases step .commented mode stack c with
      | more mode stack => exact ih mode stack
      | closed value => rfl
      | ended value => simp only [Reading.strip, strip_cons other]
      | failed cause => simp only [Reading.strip, strip_cons other]
      | failedAfter cause => rfl

theorem first_strip (text : List Char) :
    first .plain (strip text) = (first .commented text).strip :=
  run_strip .between [] text

theorem skip_strip (text : List Char) :
    Dialect.plain.skip (strip text) = strip (Dialect.commented.skip text) := by
  induction text using strip.induct with
  | case1 =>
      rw [strip_nil, Dialect.skip, Dialect.skip, Dialect.skipFrom, Dialect.skipFrom, strip_nil]
  | case2 text ih => rw [strip_semicolon, skip_commented_semicolon, ih]
  | case3 c text other ih =>
      rw [strip_cons other]
      unfold Dialect.skip Dialect.skipFrom
      simp only [startsComment_eq_false other]
      split
      · exact ih
      · simp only [Bool.false_eq_true, if_false, strip_cons other]

/-- The first character after trivia is no semicolon, so it is still there in the
stripped text. -/
theorem head_strip_skip (text : List Char) :
    (strip (Dialect.commented.skip text)).head? = (Dialect.commented.skip text).head? := by
  cases shape : Dialect.commented.skip text with
  | nil => rw [strip_nil]
  | cons c rest =>
      obtain ⟨_, noComment⟩ := head_skipFrom shape
      have other : c ≠ ';' := by
        rintro rfl
        cases noComment
      rw [strip_cons other]
      rfl

end Stripped

end Reader

/-- The kind of the error that an ending has, if it has one. -/
def Ending.kind? : Ending → Option ParseError.Kind
  | .done => none
  | .stopped _ error => some error.kind

namespace Chunk

/-- Form by form, the stripped text gives the same forms and ends in the same way. -/
theorem read_strip (text : List Char) :
    (Chunk.read .plain (strip text)).forms = (Chunk.read .commented text).forms ∧
      (Chunk.read .plain (strip text)).ending.kind? =
        (Chunk.read .commented text).ending.kind? := by
  induction size : text.length using Nat.strongRecOn generalizing text with
  | ind size ih =>
      subst size
      have stripped := Reader.first_strip text
      cases found : Reader.first .commented text with
      | form value rest =>
          rw [found] at stripped
          have next : readNext .commented text = .ok (some (value, rest)) := by
            rw [readNext, found]
          have next' : readNext .plain (strip text) = .ok (some (value, strip rest)) := by
            rw [readNext, stripped, Reader.Reading.strip]
          obtain ⟨forms, kind⟩ := ih rest.length (length_lt_of_readNext next) rest rfl
          rw [read_of_some next, read_of_some next']
          exact ⟨congrArg (value :: ·) forms, kind⟩
      | nothing =>
          rw [found] at stripped
          have next : readNext .commented text = .ok none := by rw [readNext, found]
          have next' : readNext .plain (strip text) = .ok none := by
            rw [readNext, stripped, Reader.Reading.strip]
          rw [read_of_none next, read_of_none next']
          exact ⟨rfl, rfl⟩
      | fault cause rest =>
          rw [found] at stripped
          have next : readNext .commented text = .error (cause.error text rest) := by
            rw [readNext, found]
          have next' : readNext .plain (strip text) =
              .error (cause.error (strip text) (strip rest)) := by
            rw [readNext, stripped, Reader.Reading.strip]
          rw [read_of_error next, read_of_error next']
          exact ⟨rfl, congrArg some (Reader.kind_error cause _ _ _ _)⟩

end Chunk

theorem readAll_kind (d : Dialect) (text : List Char) :
    (readAll d text).mapError ParseError.kind =
      match (Chunk.read d text).ending.kind? with
      | none => .ok (Chunk.read d text).forms
      | some kind => .error kind := by
  rw [readAll]
  cases (Chunk.read d text).ending with
  | done => rfl
  | stopped rest error => rfl

theorem readAll_strip (text : List Char) :
    (readAll .plain (strip text)).mapError ParseError.kind =
      (readAll .commented text).mapError ParseError.kind := by
  obtain ⟨forms, kind⟩ := Chunk.read_strip text
  rw [readAll_kind, readAll_kind, forms, kind]

theorem readOne_strip (text : List Char) :
    (readOne .plain (strip text)).mapError ParseError.kind =
      (readOne .commented text).mapError ParseError.kind := by
  rw [readOne, readOne, Reader.first_strip]
  cases Reader.first .commented text with
  | nothing => rfl
  | fault cause rest => exact congrArg Except.error (Reader.kind_error cause _ _ _ _)
  | form value rest =>
      have kept := Reader.head_strip_skip rest
      rw [← Reader.skip_strip] at kept
      simp only [Reader.Reading.strip]
      generalize Dialect.plain.skip (strip rest) = left at kept
      generalize Dialect.commented.skip rest = right at kept
      cases left with
      | nil =>
          obtain rfl : right = [] := by simpa using kept.symm
          rfl
      | cons c left =>
          obtain ⟨later, rfl⟩ : ∃ later, right = c :: later := by
            simpa [List.head?_eq_some_iff] using kept.symm
          rfl

/-- Reading with comments is reading the text without its comments: the same forms are
read, or reading fails for the same kind of reason. -/
theorem comments_eq_stripped (text : List Char) :
    (readAll .commented text).mapError ParseError.kind =
        (readAll .plain (strip text)).mapError ParseError.kind ∧
      (readOne .commented text).mapError ParseError.kind =
        (readOne .plain (strip text)).mapError ParseError.kind :=
  ⟨(readAll_strip text).symm, (readOne_strip text).symm⟩

end DynamicLisp
