import DynamicLisp.Proofs.Reader.Pauses
import DynamicLisp.Proofs.Reader.RoundTrip

/-!
# What more text can do for a form

A text that can be continued to a form is read or found incomplete, unless it ends
where no further context fits: there the room is tested before the end of the text,
and the form is given up although a closing parenthesis would do. In the other
direction nothing is lost: every text that is found incomplete can be continued, and
a closing parenthesis without a list is an error in every longer text.
-/

namespace DynamicLisp

open Grammar Reader

variable {d : Dialect} {text rest : List Char} {value : Value}

namespace Reader

/-- Trivia to the end of a longer text are trivia to the end of the shorter one. -/
theorem skipFrom_eq_nil_of_append {inComment : Bool} {more : List Char}
    (skipped : d.skipFrom inComment (text ++ more) = []) : d.skipFrom inComment text = [] := by
  induction text generalizing inComment with
  | nil => rw [Dialect.skipFrom]
  | cons c text ih =>
      rw [List.cons_append] at skipped
      cases inComment with
      | true =>
          rw [Dialect.skipFrom] at skipped ⊢
          exact ih skipped
      | false =>
          rw [Dialect.skipFrom] at skipped ⊢
          split at skipped
          · next space => rw [if_pos space, ih skipped]
          · next noSpace =>
            rw [if_neg noSpace]
            split at skipped
            · next start => rw [if_pos start, ih skipped]
            · cases skipped

/-- The end of the text where contexts are open: a failure for want of text or for
want of room. -/
theorem readOne_of_opened (found : first d text = run d .between (openings d text) []) :
    readOne d text = .error (Cause.error text []
      (if maxNesting ≤ (openings d text).length then .tooDeep else .endOfText)) := by
  rw [readOne, found]
  cases openings d text with
  | nil => rfl
  | cons context outer => cases context <;> rfl

end Reader

theorem readOne_of_readNext_error {error : ParseError} (failed : readNext d text = .error error) :
    readOne d text = .error error := by
  obtain ⟨cause, point, found, rfl⟩ := readNext_eq_error_iff.mp failed
  rw [readOne, found]

section Prefixes

variable {before after : List Char}

/-- If what follows a decided text leaves it a form, the text was that form before. -/
theorem readOne_of_readOne_append
    (stable : first d (before ++ after) = (first d before).append after)
    (read : readOne d (before ++ after) = .ok value) : readOne d before = .ok value := by
  rw [readOne, stable] at read
  rw [readOne]
  cases reading : first d before with
  | form first rest =>
      simp only [reading, Reading.append] at read ⊢
      cases left : d.skip (rest ++ after) with
      | nil =>
          have trivia : d.skip rest = [] := skipFrom_eq_nil_of_append left
          rw [left] at read
          rw [trivia]
          exact read
      | cons c left' =>
          rw [left] at read
          cases read
  | nothing =>
      rw [reading] at read
      cases read
  | fault cause rest =>
      rw [reading] at read
      cases read

/-- A text that starts a form is read, or found incomplete, exactly if there is room
for one more context at its end. Otherwise it ends in a list in the last place and is
refused as too deeply nested. -/
theorem readOne_cut_form (read : readOne d (before ++ after) = .ok value) :
    ((openings d before).length < maxNesting ∧
        ((∃ first, readOne d before = .ok first) ∨
          ∃ error, readOne d before = .error error ∧ error.isIncomplete = true)) ∨
      ((openings d before).length = maxNesting ∧
        ∃ error, readOne d before = .error error ∧ error.kind = .tooDeeplyNested) := by
  cases breaks d before with
  | decided closed found stable =>
      refine .inl ⟨by rw [closed]; decide, .inl ⟨value, ?_⟩⟩
      exact readOne_of_readOne_append (stable after) read
  | @atom first closed found =>
      refine .inl ⟨by rw [closed]; decide, .inl ⟨first, ?_⟩⟩
      rw [readOne, found]
      rfl
  | opened found _ =>
      have failed := readOne_of_opened found
      rcases Nat.lt_or_eq_of_le (length_openings_le d before) with room | full
      · rw [if_neg (Nat.not_le.mpr room)] at failed
        exact .inl ⟨room, .inr ⟨_, failed, rfl⟩⟩
      · -- The test for room comes before the test for the end of the text.
        rw [if_pos (Nat.le_of_eq full.symm)] at failed
        exact .inr ⟨full, _, failed, rfl⟩

end Prefixes

/-- A list that is cut inside a comment. -/
theorem readOne_cut_form_comment :
    readOne .commented ("('a ; b".toList ++ "\n)".toList) =
        .ok (.list [.quoted (.symbol "a")]) ∧
      ∃ error, readOne .commented "('a ; b".toList = .error error ∧ error.isIncomplete = true := by
  have whole : readOne .commented ("('a ; b".toList ++ "\n)".toList) =
      .ok (.list [.quoted (.symbol "a")]) := rfl
  refine ⟨whole, ?_⟩
  rcases readOne_cut_form whole with ⟨_, ⟨first, complete⟩ | incomplete⟩ | ⟨full, _⟩
  · cases complete
  · exact incomplete
  · exact absurd full (by decide)

/-- So many opening parentheses. -/
def opens (n : Nat) : List Char := List.replicate n '('

/-- So many closing parentheses. -/
def closes (n : Nat) : List Char := List.replicate n ')'

theorem opens_succ (n : Nat) : opens (n + 1) = '(' :: opens n := List.replicate_succ

theorem closes_succ (n : Nat) : closes (n + 1) = closes n ++ [')'] := List.replicate_succ'

theorem Value.text_nested (n : Nat) : (nested n).text.toList = opens (n + 1) ++ closes (n + 1) := by
  induction n with
  | zero => rfl
  | succ n ih =>
      have inside : spaced [nested n] = (nested n).text.toList := by simp [spaced]
      rw [nested, toList_text_list, inside, ih, opens_succ (n + 1), closes_succ (n + 1),
        List.cons_append, List.cons_append, List.append_assoc]

theorem Reader.run_opens {stack : List Context} {n : Nat} (room : stack.length + n ≤ maxNesting) :
    run d .between stack (opens n ++ rest) =
      run d .between (List.replicate n (.list []) ++ stack) rest := by
  induction n generalizing stack with
  | zero => rfl
  | succ n ih =>
      have shallow : stack.length < maxNesting := by omega
      have inside : (Context.list [] :: stack).length + n ≤ maxNesting := by
        rw [List.length_cons]
        omega
      rw [opens_succ, List.cons_append, run_open shallow, ih inside, List.replicate_succ',
        List.append_assoc, List.singleton_append]

/-- The closing parentheses would complete the form, but without them it is given up
and not found incomplete. -/
theorem readOne_opens_given_up :
    readOne .plain (opens 100 ++ closes 100) = .ok (Value.nested 99) ∧
      ∃ error, readOne .plain (opens 100) = .error error ∧ error.kind = .tooDeeplyNested := by
  constructor
  · rw [← Value.text_nested 99]
    apply Value.Readable.readOne_text
    refine ⟨Value.legible_nested _ _, ?_⟩
    rw [Value.nesting_nested]
    decide
  · have full : run .plain .between [] (opens 100 ++ []) = .fault .tooDeep [] := by
      rw [run_opens (by decide)]
      rfl
    rw [List.append_nil] at full
    rw [readOne, first, full]
    exact ⟨_, rfl, rfl⟩

section Completion

variable {stack : List Context} {error : ParseError}

/-- The closing parentheses that open lists wait for. -/
def Reader.closers : List Context → List Char
  | [] => []
  | .list _ :: outer => ')' :: closers outer
  | .quote :: outer => closers outer

theorem Reader.endsToken_closers (d : Dialect) (stack : List Context) :
    EndsToken d (closers stack) := by
  induction stack with
  | nil => exact endsToken_nil
  | cons context outer ih =>
      cases context with
      | list items => exact endsToken_close
      | quote => exact ih

/-- A value that goes to the innermost context and the missing parentheses after it
make a form. A quote mark takes the value at once, a list when it is closed. -/
theorem Reader.resume_closers (d : Dialect) (value : Value) (stack : List Context) :
    ∃ form, resume d (deliver value stack) (closers stack) = .form form [] := by
  induction stack generalizing value with
  | nil => exact ⟨value, rfl⟩
  | cons context outer ih =>
      cases context with
      | list items =>
          rw [deliver, resume, closers, run_close]
          exact ih _
      | quote => exact ih _

/-- Wherever there is room for a form, a digit and the missing parentheses complete
the outermost one. -/
theorem Reader.run_completion (room : stack.length < maxNesting) :
    ∃ form, run d .between stack (['0'] ++ closers stack) = .form form [] := by
  have token : Token d ['0'] (closers stack) := by
    have digit : Literal ['0'] 0 := .unsigned (digits_toDigits 0)
    obtain ⟨nonempty, plain⟩ := digit.plain d
    exact ⟨nonempty, fun c member => (plain c member).1, by decide, endsToken_closers d stack⟩
  rw [run_token room token]
  exact resume_closers d _ stack

/-- A text in which a form or a failure was found is not incomplete. -/
theorem Reader.Reading.Decided.kind_ne_incomplete (found : (first d text).Decided)
    (failed : readOne d text = .error error) : error.kind ≠ .incomplete := by
  rw [readOne] at failed
  cases reading : first d text with
  | form value rest =>
      simp only [reading] at failed
      split at failed
      · cases failed
      · cases failed
        simp only [remainingError, ParseError.near]
        split <;> simp
  | nothing =>
      rw [reading] at found
      cases found
  | fault cause rest =>
      rw [reading] at found failed
      cases failed
      cases found with
      | fault inside =>
          cases cause with
          | endOfText => exact absurd rfl inside
          | tooDeep | strayClose => simp [Cause.error, ParseError.near]

/-- Text that is found incomplete can be completed. The line feed ends the token or the
comment in which it breaks off. -/
theorem exists_completion (failed : readOne d text = .error error)
    (incomplete : error.kind = .incomplete) :
    ∃ more form, readOne d (text ++ more) = .ok form := by
  cases breaks d text with
  | decided _ found _ => exact absurd incomplete (found.kind_ne_incomplete failed)
  | atom _ found =>
      rw [readOne, found] at failed
      cases failed
  | opened found continues =>
      rw [readOne_of_opened found] at failed
      cases failed
      by_cases full : maxNesting ≤ (openings d text).length
      · rw [if_pos full] at incomplete
        cases incomplete
      · obtain ⟨form, complete⟩ := run_completion (d := d) (Nat.not_le.mp full)
        refine ⟨'\n' :: (['0'] ++ closers (openings d text)), form, ?_⟩
        rw [readOne, continues, complete]
        rfl

end Completion

section Finality

variable {error : ParseError}

theorem Reader.byteLength_append (text more : List Char) :
    byteLength (text ++ more) = byteLength text + byteLength more := by
  induction text with
  | nil => rw [List.nil_append, byteLength, Nat.zero_add]
  | cons c text ih => rw [List.cons_append, byteLength, byteLength, ih, Nat.add_assoc]

/-- Text after a failure does not move it. -/
theorem Reader.message_strayClose_append (text rest more : List Char) :
    (Cause.strayClose.error (text ++ more) (rest ++ more)).message =
      (Cause.strayClose.error text rest).message := by
  simp only [Cause.error, ParseError.near, byteLength_append, Nat.add_sub_add_right]

/-- A closing parenthesis without a list fails a text for good. -/
theorem readNext_append_of_strayClose (failed : readNext d text = .error error)
    (stray : error.kind = .unexpectedClose) (more : List Char) :
    ∃ error', readNext d (text ++ more) = .error error' ∧ error'.kind = .unexpectedClose ∧
      error'.message = error.message := by
  cases breaks d text with
  | decided _ _ stable =>
      obtain ⟨cause, point, found, rfl⟩ := readNext_eq_error_iff.mp failed
      cases cause with
      | strayClose =>
          refine ⟨_, ?_, rfl, message_strayClose_append text point more⟩
          rw [readNext, stable, found]
          rfl
      | tooDeep | endOfText => cases stray
  | atom _ found =>
      rw [readNext, found] at failed
      cases failed
  | opened found _ =>
      have alone := readOne_of_readNext_error failed
      rw [readOne_of_opened found] at alone
      cases alone
      split at stray <;> cases stray

end Finality

end DynamicLisp
