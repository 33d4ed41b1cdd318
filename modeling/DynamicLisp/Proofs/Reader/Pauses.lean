import DynamicLisp.Proofs.Reader.Extension

/-!
# Texts that break off

A text may end before its first form does. The reader then has taken every character
and pauses, and a longer text is read on from there. Where it does not pause, a form
or a failure was found inside the text and stands whatever follows.

The end of a text also ends its last token. What is left open after that decides what
the end of the text means, and a line feed in its place leads to the same point.
-/

namespace DynamicLisp.Reader

open Grammar

variable {d : Dialect} {mode : Mode} {stack : List Context} {c : Char} {text rest : List Char}

/-- Where the reader stands after a text in which it finds neither a form nor a failure. -/
def pause (d : Dialect) : Mode → List Context → List Char → Option (Mode × List Context)
  | mode, stack, [] => some (mode, stack)
  | mode, stack, c :: rest =>
    match step d mode stack c with
    | .more mode stack => pause d mode stack rest
    | _ => none

/-- What is left open where the reader pauses, once the last token has ended. -/
def settle : Mode → List Context → Delivery
  | .atom chars, stack => deliver (Atom.value chars.reverse) stack
  | _, stack => .pending stack

/-- The contexts that are open at the end of a text, the innermost first. There are
none if the first form ends, or fails, inside the text. -/
def openings (d : Dialect) (text : List Char) : List Context :=
  match pause d .between [] text with
  | none => []
  | some (mode, stack) =>
    match settle mode stack with
    | .complete _ => []
    | .pending stack => stack

section Decisions

/-- What was found inside a text, with more text after it. -/
def Reading.append (more : List Char) : Reading → Reading
  | .form value rest => .form value (rest ++ more)
  | .nothing => .nothing
  | .fault cause rest => .fault cause (rest ++ more)

/-- A form, or a failure that the end of the text has no part in. -/
inductive Reading.Decided : Reading → Prop where
  | form (value : Value) (rest : List Char) : Decided (.form value rest)
  | fault {cause : Cause} (inside : cause ≠ .endOfText) (rest : List Char) :
      Decided (.fault cause rest)

/-- No character is the end of the text. -/
theorem stepBetween_ne_endOfText (d : Dialect) (stack : List Context) (c : Char) :
    stepBetween d stack c ≠ .failed .endOfText ∧
      stepBetween d stack c ≠ .failedAfter .endOfText := by
  unfold stepBetween
  repeat' split
  all_goals simp

theorem step_ne_endOfText (d : Dialect) (mode : Mode) (stack : List Context) (c : Char) :
    step d mode stack c ≠ .failed .endOfText ∧ step d mode stack c ≠ .failedAfter .endOfText := by
  cases mode with
  | between => exact stepBetween_ne_endOfText d stack c
  | comment => simp [step]
  | atom chars =>
      rw [step]
      split
      · cases deliver (Atom.value chars.reverse) stack with
        | complete value => simp
        | pending later => exact stepBetween_ne_endOfText d later c
      · simp

theorem run_of_pause {mode' : Mode} {stack' : List Context}
    (paused : pause d mode stack text = some (mode', stack')) (more : List Char) :
    run d mode stack (text ++ more) = run d mode' stack' more := by
  induction text generalizing mode stack with
  | nil =>
      cases paused
      rfl
  | cons c text ih =>
      rw [pause] at paused
      cases taken : step d mode stack c <;> simp only [taken] at paused
      case more =>
        rw [List.cons_append, run, taken]
        exact ih paused
      all_goals cases paused

/-- Where the reader does not pause, it decides, and it decides for every longer text. -/
theorem run_of_not_pause (unpaused : pause d mode stack text = none) :
    (run d mode stack text).Decided ∧
      ∀ more, run d mode stack (text ++ more) = (run d mode stack text).append more := by
  induction text generalizing mode stack with
  | nil => cases unpaused
  | cons c text ih =>
      rw [pause] at unpaused
      obtain ⟨inside, insideAfter⟩ := step_ne_endOfText d mode stack c
      cases taken : step d mode stack c with
      | more mode' stack' =>
          simp only [taken] at unpaused
          simp only [List.cons_append, run, taken]
          exact ih unpaused
      | closed value =>
          simp only [List.cons_append, run, taken]
          exact ⟨.form value text, fun _ => rfl⟩
      | ended value =>
          simp only [List.cons_append, run, taken]
          exact ⟨.form value (c :: text), fun _ => rfl⟩
      | failed cause =>
          simp only [List.cons_append, run, taken]
          exact ⟨.fault (fun same => inside (same ▸ taken)) _, fun _ => rfl⟩
      | failedAfter cause =>
          simp only [List.cons_append, run, taken]
          exact ⟨.fault (fun same => insideAfter (same ▸ taken)) _, fun _ => rfl⟩

end Decisions

section Endings

/-- The end of the text and a line feed both end the token before them. -/
theorem run_settle (ends : ∀ c ∈ rest.head?, c = '\n') :
    run d mode stack rest = resume d (settle mode stack) rest := by
  cases mode with
  | between => rfl
  | comment => exact run_comment_end ends
  | atom chars =>
      have maximal : ∀ c ∈ rest.head?, c ∈ delimiters d := by
        intro c member
        rw [ends c member]
        exact spaces_subset_delimiters (by decide)
      have read : run d (.atom chars) stack ([] ++ rest) =
          resume d (deliver (Atom.value (chars.reverse ++ [])) stack) rest :=
        run_atom (by simp) maximal
      rwa [List.nil_append, List.append_nil] at read

theorem first_of_pause (paused : pause d .between [] text = some (mode, stack))
    (ends : ∀ c ∈ rest.head?, c = '\n') :
    first d (text ++ rest) = resume d (settle mode stack) rest := by
  rw [first, run_of_pause paused, run_settle ends]

/-- How a text can end: after a form or a failure, right after an atom that is the
whole form, or in contexts that are still open. -/
inductive Breaks (d : Dialect) (text : List Char) : Prop where
  | decided (closed : openings d text = []) (found : (first d text).Decided)
      (stable : ∀ more, first d (text ++ more) = (first d text).append more)
  | atom {value : Value} (closed : openings d text = []) (found : first d text = .form value [])
  | opened (found : first d text = run d .between (openings d text) [])
      (continues : ∀ more, first d (text ++ '\n' :: more) = run d .between (openings d text) more)

theorem breaks (d : Dialect) (text : List Char) : Breaks d text := by
  cases paused : pause d .between [] text with
  | none =>
      obtain ⟨found, stable⟩ := run_of_not_pause paused
      exact .decided (by rw [openings, paused]) found stable
  | some point =>
      obtain ⟨mode, stack⟩ := point
      have ending : first d (text ++ []) = resume d (settle mode stack) [] :=
        first_of_pause paused (by simp)
      rw [List.append_nil] at ending
      cases settled : settle mode stack with
      | complete value =>
          rw [settled] at ending
          exact .atom (by simp only [openings, paused, settled]) ending
      | pending later =>
          have open' : openings d text = later := by simp only [openings, paused, settled]
          rw [settled] at ending
          refine .opened (by rw [open']; exact ending) ?_
          intro more
          -- Once it has ended the token, the line feed is one more space.
          rw [first_of_pause paused (by simp), settled, resume, open', run_space (by decide)]

end Endings

section Bounds

/-- A delivery opens nothing. -/
theorem length_le_of_deliver {value : Value} {later : List Context}
    (delivered : deliver value stack = .pending later) : later.length ≤ stack.length := by
  induction stack generalizing value with
  | nil => cases delivered
  | cons context outer ih =>
      cases context with
      | list items =>
          cases delivered
          exact Nat.le_refl _
      | quote => exact Nat.le_succ_of_le (ih delivered)

theorem length_le_of_stepBetween {mode' : Mode} {stack' : List Context}
    (bounded : stack.length ≤ maxNesting) (taken : stepBetween d stack c = .more mode' stack') :
    stack'.length ≤ maxNesting := by
  unfold stepBetween at taken
  split at taken
  · cases taken
    exact bounded
  split at taken
  · cases taken
    exact bounded
  split at taken
  · split at taken
    · next items outer =>
      cases delivered : deliver (.list items.reverse) outer with
      | complete value =>
          simp only [delivered] at taken
          cases taken
      | pending later =>
          simp only [delivered] at taken
          cases taken
          exact (length_le_of_deliver delivered).trans (Nat.le_of_succ_le bounded)
    · cases taken
  split at taken
  · cases taken
  next shallow =>
  split at taken
  · cases taken
    exact Nat.not_le.mp shallow
  split at taken
  · split at taken
    · cases taken
    · cases taken
      exact Nat.not_le.mp shallow
  · cases taken
    exact bounded

theorem length_le_of_step {mode' : Mode} {stack' : List Context}
    (bounded : stack.length ≤ maxNesting) (taken : step d mode stack c = .more mode' stack') :
    stack'.length ≤ maxNesting := by
  cases mode with
  | between => exact length_le_of_stepBetween bounded taken
  | comment =>
      cases taken
      exact bounded
  | atom chars =>
      rw [step] at taken
      split at taken
      · cases delivered : deliver (Atom.value chars.reverse) stack with
        | complete value =>
            simp only [delivered] at taken
            cases taken
        | pending later =>
            simp only [delivered] at taken
            exact length_le_of_stepBetween ((length_le_of_deliver delivered).trans bounded) taken
      · cases taken
        exact bounded

theorem length_le_of_pause {mode' : Mode} {stack' : List Context}
    (bounded : stack.length ≤ maxNesting)
    (paused : pause d mode stack text = some (mode', stack')) : stack'.length ≤ maxNesting := by
  induction text generalizing mode stack with
  | nil =>
      cases paused
      exact bounded
  | cons c text ih =>
      rw [pause] at paused
      cases taken : step d mode stack c <;> simp only [taken] at paused
      case more => exact ih (length_le_of_step bounded taken) paused
      all_goals cases paused

theorem length_openings_le (d : Dialect) (text : List Char) :
    (openings d text).length ≤ maxNesting := by
  unfold openings
  split
  · exact Nat.zero_le _
  · next mode stack paused =>
    have bounded : stack.length ≤ maxNesting := length_le_of_pause (Nat.zero_le _) paused
    cases mode with
    | atom chars =>
        rw [settle]
        split
        · exact Nat.zero_le _
        · next delivered => exact (length_le_of_deliver delivered).trans bounded
    | between | comment => exact bounded

end Bounds

end DynamicLisp.Reader
