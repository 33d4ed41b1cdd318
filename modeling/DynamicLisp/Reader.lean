import DynamicLisp.Error
import DynamicLisp.Reader.Step

/-!
# Reading program text

`Reader.run` reads the first form of a text and tells what text is left. On top
of it, `readOne` wants exactly one form, `readNext` the first of several, and
`Chunk.read` all forms up to the end of the text or to the first form that
cannot be read.

A failure is located by the text that starts at the point of failure. Messages
give positions as a number of UTF-8 bytes from the start of the text that the
call was given.
-/

namespace DynamicLisp

namespace Reader

/-- What a text starts with. -/
inductive Reading where
  /-- A form, and the text after it. -/
  | form (value : Value) (rest : List Char)
  /-- Nothing but trivia. -/
  | nothing
  /-- A form that cannot be read, and the text at the point of failure. -/
  | fault (cause : Cause) (rest : List Char)

/-- The end of the text inside open contexts. -/
def unfinished (stack : List Context) : Reading :=
  .fault (if maxNesting ≤ stack.length then .tooDeep else .endOfText) []

/-- The end of the text. -/
def finish : Mode → List Context → Reading
  | .atom chars, stack =>
    match deliver (Atom.value chars.reverse) stack with
    | .complete value => .form value []
    | .pending stack => unfinished stack
  | _, [] => .nothing
  | _, stack => unfinished stack

/-- Reads on from a mode and a stack of open contexts. -/
def run (d : Dialect) : Mode → List Context → List Char → Reading
  | mode, stack, [] => finish mode stack
  | mode, stack, c :: rest =>
    match step d mode stack c with
    | .more mode stack => run d mode stack rest
    | .closed value => .form value rest
    | .ended value => .form value (c :: rest)
    | .failed cause => .fault cause (c :: rest)
    | .failedAfter cause => .fault cause rest

/-- The first form of a text. -/
def first (d : Dialect) (text : List Char) : Reading :=
  run d .between [] text

theorem stepBetween_ne_ended (d : Dialect) (stack : List Context) (c : Char) (value : Value) :
    stepBetween d stack c ≠ .ended value := by
  unfold stepBetween
  repeat' split
  all_goals simp

/-- Reading a form never gives back more text than there was, and outside an
atom it takes at least one character. -/
theorem length_of_run_eq_form {d : Dialect} {mode : Mode} {stack : List Context}
    {text rest : List Char} {value : Value} (h : run d mode stack text = .form value rest) :
    rest.length ≤ text.length ∧ ((∀ chars, mode ≠ .atom chars) → rest.length < text.length) := by
  induction text generalizing mode stack with
  | nil =>
    simp only [run, finish, unfinished] at h
    split at h
    · split at h
      · cases h
        exact ⟨Nat.le_refl _, fun outside => absurd rfl (outside _)⟩
      · cases h
    · cases h
    · cases h
  | cons c text ih =>
    simp only [run] at h
    split at h
    · have bound := (ih h).1
      rw [List.length_cons]
      exact ⟨by omega, fun _ => by omega⟩
    · cases h
      exact ⟨by simp, fun _ => by simp⟩
    · next hstep =>
      cases h
      refine ⟨Nat.le_refl _, fun outside => ?_⟩
      cases mode with
      | between => exact absurd hstep (stepBetween_ne_ended d stack c value)
      | comment => cases hstep
      | atom chars => exact absurd rfl (outside chars)
    · cases h
    · cases h

/-- The text after a form is shorter than the text that started with it. -/
theorem length_lt_of_first_eq_form {d : Dialect} {text rest : List Char} {value : Value}
    (h : first d text = .form value rest) : rest.length < text.length :=
  (length_of_run_eq_form h).2 fun _ => by simp

/-- The number of UTF-8 bytes of a text. -/
def byteLength : List Char → Nat
  | [] => 0
  | c :: text => c.utf8Size + byteLength text

/-- The error for a failure in `text` at the point where `rest` starts. -/
def Cause.error (text rest : List Char) : Cause → ParseError
  | tooDeep =>
    .near .tooDeeplyNested
      ("Expression too deeply nested (max depth: " ++ maxNesting.repr ++ ")") rest
  | endOfText => .near .incomplete "Unexpected end of input" rest
  | strayClose =>
    .near .unexpectedClose
      ("Unexpected ')' at position " ++ (byteLength text - byteLength rest).repr) rest

/-- The error for text after the one form that was wanted. -/
def remainingError (rest : List Char) : ParseError :=
  .near (if rest.head? = some ')' then .unexpectedClose else .invalidSyntax)
    "Unexpected remaining input" rest

end Reader

/-- Reads a text that holds exactly one form. -/
def readOne (d : Dialect) (text : List Char) : Except ParseError Value :=
  match Reader.first d text with
  | .form value rest =>
    match d.skip rest with
    | [] => .ok value
    | remaining => .error (Reader.remainingError remaining)
  | .nothing => .error (Reader.Cause.endOfText.error text [])
  | .fault cause rest => .error (cause.error text rest)

/-- Reads the first form of a text and gives the text after it, or nothing if
the text holds only trivia. -/
def readNext (d : Dialect) (text : List Char) : Except ParseError (Option (Value × List Char)) :=
  match Reader.first d text with
  | .form value rest => .ok (some (value, rest))
  | .nothing => .ok none
  | .fault cause rest => .error (cause.error text rest)

theorem length_lt_of_readNext {d : Dialect} {text rest : List Char} {value : Value}
    (h : readNext d text = .ok (some (value, rest))) : rest.length < text.length := by
  unfold readNext at h
  split at h
  · next hfirst =>
    cases h
    exact Reader.length_lt_of_first_eq_form hfirst
  · cases h
  · cases h

/-- How the forms of a text end. -/
inductive Ending where
  /-- The text was read to its end. -/
  | done
  /-- A form could not be read; `rest` is the text after the form before it. -/
  | stopped (rest : List Char) (error : ParseError)

/-- The forms of a text up to its end or to the first one that cannot be read. -/
structure Chunk where
  forms : List Value
  ending : Ending

namespace Chunk

/-- Reads form after form. -/
def read (d : Dialect) (text : List Char) : Chunk :=
  match h : readNext d text with
  | .ok none => ⟨[], .done⟩
  | .ok (some (value, rest)) =>
    have := length_lt_of_readNext h
    let later := read d rest
    ⟨value :: later.forms, later.ending⟩
  | .error error => ⟨[], .stopped text error⟩
termination_by text.length

end Chunk

/-- Reads a text that holds any number of forms. -/
def readAll (d : Dialect) (text : List Char) : Except ParseError (List Value) :=
  let chunk := Chunk.read d text
  match chunk.ending with
  | .done => .ok chunk.forms
  | .stopped _ error => .error error

end DynamicLisp
