import DynamicLisp.Proofs.Reader.Pauses

/-!
# Reading two texts as one

Texts that are put together with a line feed between them are read one after the other:
the line feed ends the last atom and the last comment of the first text, so no form of it
changes. If the second text cannot be read to its end, the whole fails in the same way. A
message may give another position, because positions are counted from the end of the form
before, and that form may now be in the first text.
-/

namespace DynamicLisp

open Grammar Reader

variable {d : Dialect} {text rest : List Char} {value : Value}

namespace Reader

/-- A line feed after a text leaves its first form as it is. -/
theorem first_append_of_form (read : first d text = .form value rest) (more : List Char) :
    first d (text ++ '\n' :: more) = .form value (rest ++ '\n' :: more) := by
  cases paused : pause d .between [] text with
  | none =>
      have stable := (run_of_not_pause paused).2 ('\n' :: more)
      have decided : run d .between [] text = .form value rest := read
      rw [first, stable, decided, Reading.append]
  | some point =>
      -- Only a form that is an atom at the end of the text is read where the reader pauses.
      obtain ⟨mode, stack⟩ := point
      have ending : first d (text ++ []) = resume d (settle mode stack) [] :=
        first_of_pause paused (by simp)
      rw [List.append_nil, read] at ending
      rw [first_of_pause paused (by simp)]
      cases settled : settle mode stack with
      | complete found =>
          rw [settled] at ending
          cases ending
          rfl
      | pending later =>
          rw [settled] at ending
          cases later <;> cases ending

/-- A text without forms and the line feed after it are skipped. -/
theorem first_append_of_nothing (read : first d text = .nothing) (more : List Char) :
    first d (text ++ '\n' :: more) = first d more := by
  cases breaks d text with
  | decided _ found _ =>
      rw [read] at found
      cases found
  | atom _ found =>
      rw [read] at found
      cases found
  | opened found continues =>
      rw [read] at found
      rw [continues]
      cases left : openings d text with
      | nil => rfl
      | cons context outer =>
          rw [left] at found
          cases found

end Reader

/-- The same failure, told of two texts: only a position in the message may differ. -/
structure ParseError.Relocates (error other : ParseError) : Prop where
  kind : error.kind = other.kind
  context : error.context = other.context
  message : error.message = other.message ∨ ∃ position position' : Nat,
    error.message = "Unexpected ')' at position " ++ position.repr ∧
      other.message = "Unexpected ')' at position " ++ position'.repr

theorem ParseError.Relocates.refl (error : ParseError) : error.Relocates error :=
  ⟨rfl, rfl, .inl rfl⟩

/-- The context and the message speak of the text at the point of failure, and a position is
all that depends on the text before it. -/
theorem Reader.relocates_error (cause : Cause) (text text' rest : List Char) :
    (cause.error text rest).Relocates (cause.error text' rest) := by
  cases cause with
  | tooDeep | endOfText => exact .refl _
  | strayClose => exact ⟨rfl, rfl, .inr ⟨_, _, rfl, rfl⟩⟩

section ReadAll

theorem readAll_of_none (next : readNext d text = .ok none) : readAll d text = .ok [] := by
  rw [readAll, Chunk.read_of_none next]

theorem readAll_of_some (next : readNext d text = .ok (some (value, rest))) :
    readAll d text = (readAll d rest).map (value :: ·) := by
  rw [readAll, readAll, Chunk.read_of_some next]
  cases (Chunk.read d rest).ending with
  | done => rfl
  | stopped left error => rfl

theorem readAll_of_error {error : ParseError} (next : readNext d text = .error error) :
    readAll d text = .error error := by
  rw [readAll, Chunk.read_of_error next]

end ReadAll

/-- What reading a text comes to, if `front` are the forms before its last part and `part` is
what reading that part comes to. -/
structure Continues (front : List Value) (part whole : Except ParseError (List Value)) :
    Prop where
  ok : ∀ forms, part = .ok forms → whole = .ok (front ++ forms)
  error : ∀ error, part = .error error → ∃ error', whole = .error error' ∧ error'.Relocates error

namespace Continues

variable {part whole : Except ParseError (List Value)} {front : List Value}

theorem refl (part : Except ParseError (List Value)) : Continues [] part part :=
  ⟨fun _ same => same, fun error same => ⟨error, same, .refl error⟩⟩

/-- One more form in front. -/
theorem cons (continues : Continues front part whole) (value : Value) :
    Continues (value :: front) part (whole.map (value :: ·)) := by
  constructor
  · intro forms read
    rw [continues.ok forms read]
    rfl
  · intro error failed
    obtain ⟨error', failed', relocates⟩ := continues.error error failed
    exact ⟨error', by rw [failed']; rfl, relocates⟩

/-- Texts that start in the same way are read in the same way, up to positions. -/
theorem of_first_eq {text text' : List Char} (same : first d text' = first d text) :
    Continues [] (readAll d text) (readAll d text') := by
  cases found : first d text with
  | form value rest =>
      have next : readNext d text = .ok (some (value, rest)) := by rw [readNext, found]
      have next' : readNext d text' = .ok (some (value, rest)) := by rw [readNext, same, found]
      rw [readAll_of_some next, readAll_of_some next']
      exact .refl _
  | nothing =>
      have next : readNext d text = .ok none := by rw [readNext, found]
      have next' : readNext d text' = .ok none := by rw [readNext, same, found]
      rw [readAll_of_none next, readAll_of_none next']
      exact .refl _
  | fault cause rest =>
      have next : readNext d text = .error (cause.error text rest) := by rw [readNext, found]
      have next' : readNext d text' = .error (cause.error text' rest) := by
        rw [readNext, same, found]
      rw [readAll_of_error next, readAll_of_error next']
      constructor
      · rintro forms ⟨⟩
      · rintro error ⟨⟩
        exact ⟨_, rfl, relocates_error cause text' text rest⟩

end Continues

/-- Form after form of the first text is read as if the second were not there. -/
theorem continues_append_line {forms : List Value} (read : readAll d text = .ok forms)
    (more : List Char) : Continues forms (readAll d more) (readAll d (text ++ '\n' :: more)) := by
  induction size : text.length using Nat.strongRecOn generalizing text forms with
  | ind size ih =>
      subst size
      cases found : first d text with
      | form value rest =>
          have next : readNext d text = .ok (some (value, rest)) := by rw [readNext, found]
          have next' : readNext d (text ++ '\n' :: more) =
              .ok (some (value, rest ++ '\n' :: more)) := by
            rw [readNext, first_append_of_form found]
          rw [readAll_of_some next] at read
          cases later : readAll d rest with
          | error error =>
              rw [later] at read
              cases read
          | ok others =>
              rw [later] at read
              cases read
              rw [readAll_of_some next']
              exact (ih rest.length (length_lt_of_readNext next) later rfl).cons value
      | nothing =>
          have next : readNext d text = .ok none := by rw [readNext, found]
          rw [readAll_of_none next] at read
          cases read
          exact .of_first_eq (first_append_of_nothing found more)
      | fault cause rest =>
          have next : readNext d text = .error (cause.error text rest) := by rw [readNext, found]
          rw [readAll_of_error next] at read
          cases read

/-- Where a text can be read to its end, another text after a line feed is read as it is
alone: its forms come after the forms of the first, and a failure is of the same kind, with
the same context. Only a position in the message may differ. -/
theorem readAll_append_line {forms : List Value} (read : readAll d text = .ok forms)
    (more : List Char) :
    (∀ later, readAll d more = .ok later →
      readAll d (text ++ '\n' :: more) = .ok (forms ++ later)) ∧
    ∀ error, readAll d more = .error error →
      ∃ error', readAll d (text ++ '\n' :: more) = .error error' ∧
        error'.kind = error.kind ∧ error'.context = error.context ∧
        (error'.message = error.message ∨ ∃ position position' : Nat,
          error'.message = "Unexpected ')' at position " ++ position.repr ∧
            error.message = "Unexpected ')' at position " ++ position'.repr) := by
  have continues := continues_append_line read more
  refine ⟨continues.ok, ?_⟩
  intro error failed
  obtain ⟨error', failed', kind, context, message⟩ := continues.error error failed
  exact ⟨error', failed', kind, context, message⟩

/-- An atom with a comment after it, then a form or a closing parenthesis without a list. -/
theorem readAll_append_line_comment :
    readAll .commented "x;y".toList = .ok [.symbol "x"] ∧
      readAll .commented ("x;y".toList ++ '\n' :: "'z".toList) =
        .ok [.symbol "x", .quoted (.symbol "z")] ∧
      ∃ error, readAll .commented ("x;y".toList ++ '\n' :: ") z".toList) = .error error ∧
        error.kind = .unexpectedClose ∧ error.context = some ") z" := by
  have front : readAll .commented "x;y".toList = .ok [.symbol "x"] := by
    have atom : readNext .commented "x;y".toList = .ok (some (.symbol "x", ";y".toList)) := rfl
    rw [readAll_of_some atom, readAll_of_none rfl]
    rfl
  have quoted : readAll .commented "'z".toList = .ok [.quoted (.symbol "z")] := by
    have form : readNext .commented "'z".toList = .ok (some (.quoted (.symbol "z"), [])) := rfl
    rw [readAll_of_some form, readAll_of_none rfl]
    rfl
  have stray : readAll .commented ") z".toList =
      .error ⟨.unexpectedClose, "Unexpected ')' at position 0", some ") z"⟩ := by
    rw [readAll_of_error rfl]
    rfl
  refine ⟨front, (readAll_append_line front _).1 _ quoted, ?_⟩
  obtain ⟨error, failed, kind, context, _⟩ := (readAll_append_line front _).2 _ stray
  exact ⟨error, failed, kind, context⟩

end DynamicLisp
