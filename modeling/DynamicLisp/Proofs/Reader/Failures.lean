import DynamicLisp.Proofs.Reader.Pauses

/-!
# Where reading fails

A text fails at a point. What stands before the point opens contexts that are still
waiting there, and they say why the reader cannot go on: the text is over, a closing
parenthesis has no list to close, or no further context fits.

`Grammar.Opened` says which contexts a text leaves open, in the words of the grammar: the
lists and quote marks that have begun, with complete forms inside the lists. Reading keeps
this true of the text that it has taken, so it is true at the point of failure.
-/

namespace DynamicLisp

open Grammar Reader

namespace Grammar

/-- The text starts with something other than trivia. -/
def Begins (d : Dialect) (text : List Char) : Prop :=
  ∃ c ∈ text.head?, c ∉ spaces ∧ ¬ (d.comments = true ∧ c = ';')

theorem Begins.ne_nil {d : Dialect} {text : List Char} (begins : Begins d text) : text ≠ [] := by
  obtain ⟨c, starts, -⟩ := begins
  rintro rfl
  cases starts

/-- The contexts that are open after a text where `rest` comes next, the innermost first.
A list that is open holds complete forms; a quote mark that is open has only trivia
after it. -/
inductive Opened (d : Dialect) : List Context → (text rest : List Char) → Prop where
  | nothing {text rest} (skipped : Trivia d text rest) : Opened d [] text rest
  | list {outer before text values after rest}
      (outside : Opened d outer before ('(' :: text ++ after ++ rest))
      (items : Forms d (outer.length + 1) text values (after ++ rest))
      (trailing : Trivia d after rest) :
      Opened d (.list values.reverse :: outer) (before ++ '(' :: text ++ after) rest
  | quote {outer before after rest}
      (outside : Opened d outer before (Dialect.quoteMark :: after ++ rest))
      (trailing : Trivia d after rest) :
      Opened d (.quote :: outer) (before ++ Dialect.quoteMark :: after) rest

variable {d : Dialect} {stack outer : List Context} {text rest before : List Char} {value : Value}

/-- One more form after others. -/
theorem Forms.snoc {depth : Nat} {values : List Value}
    (forms : Forms d depth before values (text ++ rest)) (form : Form d depth text value rest) :
    Forms d depth (before ++ text) (values ++ [value]) rest := by
  induction values generalizing before with
  | nil =>
      cases forms
      simpa using Forms.cons (by simpa using form) Forms.nil
  | cons first values ih =>
      cases forms with
      | cons head later =>
          rw [List.append_assoc]
          exact .cons (by simpa using head) (ih later)

namespace Opened

theorem skip (opened : Opened d stack before (text ++ rest)) (skipped : Trivia d text rest) :
    Opened d stack (before ++ text) rest := by
  cases opened with
  | nothing first => exact .nothing (first.append skipped)
  | list outside items trailing =>
      rw [List.append_assoc]
      exact .list (by simpa using outside) (by simpa using items) (trailing.append skipped)
  | quote outside trailing =>
      rw [List.append_assoc, List.cons_append]
      exact .quote (by simpa using outside) (trailing.append skipped)

/-- A form goes where the reader delivers it: it completes the quote marks that wait for
it, and the list around them goes on. -/
theorem form {later : List Context} (opened : Opened d stack before (text ++ rest))
    (form : Form d stack.length text value rest)
    (delivered : deliver value stack = .pending later) : Opened d later (before ++ text) rest := by
  -- Each quote mark makes a longer form of it, which is delivered to the contexts outside.
  induction stack generalizing before text value with
  | nil => cases delivered
  | cons context outer ih =>
      cases opened with
      | @list _ before inner values after _ outside items trailing =>
          cases delivered
          have item : Form d (outer.length + 1) (after ++ text) value rest := form.skip trailing
          have items' : Forms d (outer.length + 1) (inner ++ (after ++ text)) (values ++ [value])
              ([] ++ rest) := Forms.snoc (by simpa using items) item
          have more := Opened.list (by simpa using outside) items' .nil
          simpa using more
      | @quote _ before after _ outside trailing =>
          have inner : Form d (outer.length + 1) (after ++ text) value rest := form.skip trailing
          have quoted : Form d outer.length (Dialect.quoteMark :: (after ++ text)) value.quoted
              rest := .quote (Nat.lt_of_succ_lt inner.depth_lt) .nil inner
          have more := ih (by simpa using outside) quoted delivered
          simpa using more

/-- A closing parenthesis makes the innermost list a form. -/
theorem close {items : List Value} {later : List Context}
    (opened : Opened d (.list items :: outer) before (')' :: rest))
    (shallow : outer.length < depthLimit)
    (delivered : deliver (.list items.reverse) outer = .pending later) :
    Opened d later (before ++ [')']) rest := by
  cases opened with
  | @list _ before text values after _ outside items trailing =>
      have form : Form d outer.length ('(' :: text ++ after ++ [')']) (.list values) rest :=
        .list shallow .nil items trailing
      rw [List.reverse_reverse] at delivered
      have more := Opened.form (by simpa using outside) form delivered
      simpa using more

end Opened

end Grammar

namespace Reader

/-- Why the reader cannot go on from a point, with these contexts open. -/
def Cause.Holds (stack : List Context) (point : List Char) : Cause → Prop
  | endOfText => point = [] ∧ stack ≠ [] ∧ stack.length < maxNesting
  | strayClose => point.head? = some ')' ∧ (stack = [] ∨ stack.head? = some .quote)
  | tooDeep => stack.length = maxNesting

/-- A text that fails, with the contexts that are open at the point of failure. -/
structure FailsAt (d : Dialect) (text : List Char) (cause : Cause) (point before : List Char)
    (stack : List Context) : Prop where
  shape : text = before ++ point
  opened : Opened d stack before point
  holds : cause.Holds stack point

/-- The reader stands where `rest` starts, with the contexts open that the text before
leaves open, and fails further on. -/
structure Fails (d : Dialect) (cause : Cause) (point : List Char) (stack : List Context)
    (before rest : List Char) : Prop where
  opened : Opened d stack before rest
  bounded : stack.length ≤ maxNesting
  failed : run d .between stack rest = .fault cause point

/-- What one token of a text that fails comes to: the failure, or the same failure further
on. -/
inductive Advance (d : Dialect) (cause : Cause) (point : List Char) (text : List Char)
    (size : Nat) : Prop where
  | fails {before stack} (located : FailsAt d text cause point before stack)
  | moves {stack before rest} (shape : text = before ++ rest)
      (fails : Fails d cause point stack before rest) (shorter : rest.length ≤ size)

variable {d : Dialect} {cause : Cause} {point : List Char} {stack : List Context}
  {before rest : List Char} {c : Char}

/-- A value that completes the form leaves no room for a failure. -/
theorem pending_of_resume_fault {delivery : Delivery}
    (failed : resume d delivery rest = .fault cause point) :
    ∃ later, delivery = .pending later ∧ run d .between later rest = .fault cause point := by
  cases delivery with
  | complete value => cases failed
  | pending later => exact ⟨later, rfl, failed⟩

namespace Fails

theorem close (fails : Fails d cause point stack before (')' :: rest)) :
    Advance d cause point (before ++ ')' :: rest) rest.length := by
  obtain ⟨opened, bounded, failed⟩ := fails
  have stray (noList : ∀ items outer, stack ≠ .list items :: outer)
      (outside : stack = [] ∨ stack.head? = some .quote) :
      Advance d cause point (before ++ ')' :: rest) rest.length := by
    rw [run_strayClose noList] at failed
    cases failed
    exact .fails ⟨rfl, opened, rfl, outside⟩
  rcases stack with _ | ⟨items | _, outer⟩
  · exact stray (by simp) (.inl rfl)
  · rw [run_close] at failed
    obtain ⟨later, delivered, failed⟩ := pending_of_resume_fault failed
    have within : later.length ≤ maxNesting :=
      (length_le_of_deliver delivered).trans (Nat.le_of_succ_le bounded)
    exact .moves (by simp) ⟨opened.close bounded delivered, within, failed⟩ (Nat.le_refl _)
  · exact stray (by simp) (.inr rfl)

theorem openList (fails : Fails d cause point stack before ('(' :: rest))
    (shallow : stack.length < maxNesting) :
    Advance d cause point (before ++ '(' :: rest) rest.length := by
  obtain ⟨opened, -, failed⟩ := fails
  rw [run_open shallow] at failed
  have inside : Opened d (.list [] :: stack) (before ++ '(' :: [] ++ []) rest :=
    .list opened .nil .nil
  exact .moves (by simp) ⟨inside, shallow, failed⟩ (Nat.le_refl _)

theorem quote (fails : Fails d cause point stack before (Dialect.quoteMark :: rest))
    (shallow : stack.length < maxNesting) :
    Advance d cause point (before ++ Dialect.quoteMark :: rest) rest.length := by
  obtain ⟨opened, -, failed⟩ := fails
  have inside : Opened d (.quote :: stack) (before ++ Dialect.quoteMark :: []) rest :=
    .quote opened .nil
  rcases Nat.lt_or_eq_of_le (Nat.succ_le_of_lt shallow) with deeper | full
  · rw [run_quote deeper] at failed
    exact .moves (by simp) ⟨inside, shallow, failed⟩ (Nat.le_refl _)
  · rw [run_quote_tooDeep shallow (Nat.le_of_eq full.symm)] at failed
    cases failed
    exact .fails ⟨by simp, inside, full⟩

theorem token (fails : Fails d cause point stack before (c :: rest))
    (shallow : stack.length < maxNesting) (plain : c ∉ delimiters d)
    (noQuote : c ≠ Dialect.quoteMark) :
    Advance d cause point (before ++ c :: rest) rest.length := by
  obtain ⟨opened, bounded, failed⟩ := fails
  obtain ⟨word, left, shape, token⟩ := exists_token plain noQuote rest
  rw [shape] at opened failed ⊢
  rw [run_token shallow token] at failed
  obtain ⟨later, delivered, failed⟩ := pending_of_resume_fault failed
  have form : Form d stack.length ([] ++ word) (Atom.value word) left :=
    .atom shallow .nil token (denotes_iff.mpr rfl)
  have shorter : left.length ≤ rest.length := by
    have sizes := congrArg List.length shape
    have nonempty := List.length_pos_iff.mpr token.nonempty
    simp only [List.length_cons, List.length_append] at sizes
    omega
  exact .moves (List.append_assoc _ _ _).symm
    ⟨opened.form form delivered, (length_le_of_deliver delivered).trans bounded, failed⟩ shorter

/-- A character that is no trivia: a parenthesis, a quote mark or an atom, or there is no
room for it. -/
theorem advance (fails : Fails d cause point stack before (c :: rest)) (noSpace : c ∉ spaces)
    (noComment : d.startsComment c = false) :
    Advance d cause point (before ++ c :: rest) rest.length := by
  by_cases isClose : c = ')'
  · subst isClose
    exact fails.close
  rcases Nat.lt_or_eq_of_le fails.bounded with shallow | full
  · by_cases isOpen : c = '('
    · subst isOpen
      exact fails.openList shallow
    by_cases isQuote : c = Dialect.quoteMark
    · subst isQuote
      exact fails.quote shallow
    · exact fails.token shallow (not_mem_delimiters noSpace noComment isOpen isClose) isQuote
  · have failed := fails.failed
    rw [run_tooDeep (Nat.le_of_eq full.symm) noSpace noComment isClose] at failed
    cases failed
    exact .fails ⟨rfl, fails.opened, full⟩

theorem endOfText (fails : Fails d cause point stack before []) :
    ∃ before' stack', FailsAt d (before ++ []) cause point before' stack' := by
  obtain ⟨opened, bounded, failed⟩ := fails
  cases stack with
  | nil => cases failed
  | cons context outer =>
      have ending : run d .between (context :: outer) [] = unfinished (context :: outer) := rfl
      rw [ending, unfinished] at failed
      split at failed
      · next full =>
        cases failed
        exact ⟨before, _, rfl, opened, Nat.le_antisymm bounded full⟩
      · next room =>
        cases failed
        exact ⟨before, _, rfl, opened, rfl, by simp, Nat.not_le.mp room⟩

/-- Every failure further on has its place. -/
theorem located (fails : Fails d cause point stack before rest) :
    ∃ before' stack', FailsAt d (before ++ rest) cause point before' stack' := by
  -- A token is read at a time, with the trivia before it, so the text that is left gets shorter.
  induction size : rest.length using Nat.strongRecOn generalizing stack before rest with
  | ind size ih =>
      subst size
      obtain ⟨skipped, shape, trivia⟩ := exists_trivia_skip d rest
      obtain ⟨opened, bounded, failed⟩ := fails
      rw [shape, run_trivia trivia] at failed
      rw [shape] at opened
      have further : Fails d cause point stack (before ++ skipped) (d.skip rest) :=
        ⟨opened.skip trivia, bounded, failed⟩
      have whole : before ++ rest = before ++ skipped ++ d.skip rest := by
        rw [List.append_assoc, ← shape]
      rw [whole]
      cases head : d.skip rest with
      | nil =>
          rw [head] at further
          exact further.endOfText
      | cons c tail =>
          obtain ⟨noSpace, noComment⟩ := head_skipFrom head
          rw [head] at further shape
          cases further.advance noSpace noComment with
          | fails located => exact ⟨_, _, located⟩
          | moves shape' fails shorter =>
              rw [shape']
              refine ih _ ?_ fails rfl
              rw [shape, List.length_append, List.length_cons]
              omega

end Fails

theorem located_of_first_fault {text : List Char} (failed : first d text = .fault cause point) :
    ∃ before stack, FailsAt d text cause point before stack := by
  have fails : Fails d cause point [] [] text := ⟨.nothing .nil, Nat.zero_le _, failed⟩
  exact fails.located

theorem byteLength_eq (text : List Char) : byteLength text = (String.ofList text).utf8ByteSize := by
  induction text with
  | nil => simp [byteLength]
  | cons c text ih =>
      rw [byteLength, ih, String.ofList_cons, String.utf8ByteSize_append,
        String.utf8ByteSize_singleton]

/-- The bytes up to a point are the bytes of the whole without those after it. -/
theorem byteLength_sub (before point : List Char) :
    byteLength (before ++ point) - byteLength point = (String.ofList before).utf8ByteSize := by
  rw [byteLength_eq, byteLength_eq, String.ofList_append, String.utf8ByteSize_append,
    Nat.add_sub_cancel]

/-- Trivia are skipped, and nothing else is. -/
theorem skip_append {after remainder : List Char} (skipped : Trivia d after remainder)
    (begins : Begins d remainder) : d.skip (after ++ remainder) = remainder := by
  obtain ⟨c, starts, noSpace, noComment⟩ := begins
  obtain ⟨tail, rfl⟩ := List.head?_eq_some_iff.mp (Option.mem_def.mp starts)
  rw [skip_trivia skipped, Dialect.skip, Dialect.skipFrom, if_neg (isSpace_iff.not.mpr noSpace),
    if_neg (startsComment_iff.not.mpr noComment)]

theorem exists_remainder (left : d.skip rest ≠ []) :
    ∃ after remainder, rest = after ++ remainder ∧ Trivia d after remainder ∧
      Begins d remainder := by
  obtain ⟨after, shape, skipped⟩ := exists_trivia_skip d rest
  refine ⟨after, d.skip rest, shape, skipped, ?_⟩
  cases head : d.skip rest with
  | nil => exact absurd head left
  | cons c tail =>
      obtain ⟨noSpace, noComment⟩ := head_skipFrom head
      refine ⟨c, rfl, noSpace, ?_⟩
      rw [← startsComment_iff, noComment]
      exact Bool.false_ne_true

end Reader

namespace ParseError

/-- The first forty characters of a text in one line, unless nothing of them is left: line
feeds are written as a backslash and the letter n, carriage returns are dropped. -/
def excerpt (text : List Char) : Option String :=
  let line := (text.take 40).flatMap fun c => if c = '\n' then ['\\', 'n'] else [c]
  let shown := line.filter (· ≠ '\r')
  if shown = [] then none else some (String.ofList shown)

theorem snippet_eq_excerpt (text : List Char) : snippet text = excerpt text := by
  have each : snippetChar = fun c =>
      (if c = '\n' then ['\\', 'n'] else [c]).filter (· ≠ '\r') := by
    funext c
    by_cases feed : c = '\n'
    · simp [snippetChar, feed]
    · by_cases back : c = '\r' <;> simp [snippetChar, feed, back]
  rw [snippet, snippetLength, excerpt, each, ← List.filter_flatMap]
  cases List.filter _ _ <;> rfl

end ParseError

section Errors

variable {d : Dialect} {text : List Char} {error : ParseError}

/-- The context of an error shows the text at the point of failure. -/
theorem Reader.context_error (cause : Cause) (text point : List Char) :
    (cause.error text point).context = ParseError.excerpt point := by
  rw [← ParseError.snippet_eq_excerpt]
  cases cause <;> rfl

/-- Where no list is innermost, nothing has begun or a quote mark waits. -/
theorem Grammar.Opened.stray {stack : List Context} {before point : List Char}
    (opened : Opened d stack before point) (outside : stack = [] ∨ stack.head? = some .quote) :
    Trivia d before point ∨ stack.head? = some .quote ∧
      ∃ front after, before = front ++ Dialect.quoteMark :: after ∧ Trivia d after point := by
  cases opened with
  | nothing skipped => exact .inl skipped
  | list => simp at outside
  | quote _ trailing => exact .inr ⟨rfl, _, _, rfl, trailing⟩

/-- The contexts that are open account for the kind of the error and for its message. -/
theorem Reader.FailsAt.error_cases {cause : Cause} {point before : List Char}
    {stack : List Context} (located : FailsAt d text cause point before stack) :
    ((cause.error text point).kind = .incomplete ∧
        (cause.error text point).message = "Unexpected end of input" ∧
        point = [] ∧ (cause.error text point).context = none ∧ stack ≠ []) ∨
      ((cause.error text point).kind = .unexpectedClose ∧ point.head? = some ')' ∧
        (cause.error text point).message =
          "Unexpected ')' at position " ++ (String.ofList before).utf8ByteSize.repr ∧
        (Trivia d before point ∨ stack.head? = some .quote ∧
          ∃ front after, before = front ++ Dialect.quoteMark :: after ∧ Trivia d after point)) ∨
      ((cause.error text point).kind = .tooDeeplyNested ∧
        (cause.error text point).message = "Expression too deeply nested (max depth: 100)" ∧
        stack.length = 100) := by
  obtain ⟨rfl, opened, holds⟩ := located
  cases cause with
  | endOfText =>
      obtain ⟨rfl, waiting, -⟩ := holds
      exact .inl ⟨rfl, rfl, rfl, rfl, waiting⟩
  | strayClose =>
      obtain ⟨starts, outside⟩ := holds
      refine .inr (.inl ⟨rfl, starts, ?_, opened.stray outside⟩)
      rw [← byteLength_sub before point]
      rfl
  | tooDeep => exact .inr (.inr ⟨rfl, rfl, holds⟩)

/-- A text does not hold exactly one form: the first cannot be read, there is none, or
something comes after it. -/
theorem readOne_eq_error_iff :
    readOne d text = .error error ↔
      readNext d text = .error error ∨
      (Trivia d text [] ∧ error = ⟨.incomplete, "Unexpected end of input", none⟩) ∨
      ∃ read value after remainder, text = read ++ (after ++ remainder) ∧
        Form d 0 read value (after ++ remainder) ∧ Trivia d after remainder ∧
        Begins d remainder ∧ error = remainingError remainder := by
  rw [readNext_eq_error_iff, ← first_eq_nothing_iff, readOne]
  constructor
  · intro failed
    cases found : first d text with
    | form value rest =>
        obtain ⟨read, shape, form⟩ := first_eq_form_iff.mp found
        by_cases left : d.skip rest = []
        · simp only [found, left, reduceCtorEq] at failed
        · obtain ⟨after, remainder, rfl, skipped, begins⟩ := exists_remainder left
          have nonempty := begins.ne_nil
          simp only [found, skip_append skipped begins, Except.error.injEq] at failed
          exact .inr (.inr
            ⟨read, value, after, remainder, shape, form, skipped, begins, failed.symm⟩)
    | nothing =>
        simp only [found, Except.error.injEq] at failed
        exact .inr (.inl ⟨rfl, failed.symm⟩)
    | fault cause point =>
        simp only [found, Except.error.injEq] at failed
        exact .inl ⟨cause, point, rfl, failed.symm⟩
  · rintro (⟨cause, point, found, rfl⟩ | ⟨found, rfl⟩ |
      ⟨read, value, after, remainder, rfl, form, skipped, begins, rfl⟩)
    · rw [found]
    · rw [found]
      rfl
    · have nonempty := begins.ne_nil
      simp only [first_of_form form, skip_append skipped begins]

/-- Reading fails at a point in the text. The context of the error shows the text from
there on, and the contexts that are open there account for its kind: at the end of the text
some context waits, a closing parenthesis finds nothing that has begun or a quote mark that
waits for its form, or a hundred contexts are open. The position of a closing parenthesis
counts the bytes before it. Wanting exactly one form fails in the same way, or for want of a
form, or at what comes after the form and its trivia. -/
theorem reader_errors_located (d : Dialect) (text : List Char) :
    (∀ error, readNext d text = .error error →
      ∃ before point stack, text = before ++ point ∧ Opened d stack before point ∧
        error.context = ParseError.excerpt point ∧
        ((error.kind = .incomplete ∧ error.message = "Unexpected end of input" ∧
            point = [] ∧ error.context = none ∧ stack ≠ []) ∨
          (error.kind = .unexpectedClose ∧ point.head? = some ')' ∧
            error.message =
              "Unexpected ')' at position " ++ (String.ofList before).utf8ByteSize.repr ∧
            (Trivia d before point ∨ stack.head? = some .quote ∧
              ∃ front after, before = front ++ Dialect.quoteMark :: after ∧
                Trivia d after point)) ∨
          (error.kind = .tooDeeplyNested ∧
            error.message = "Expression too deeply nested (max depth: 100)" ∧
            stack.length = 100))) ∧
    ∀ error, readOne d text = .error error ↔
      readNext d text = .error error ∨
      (Trivia d text [] ∧ error = ⟨.incomplete, "Unexpected end of input", none⟩) ∨
      ∃ read value after remainder, text = read ++ (after ++ remainder) ∧
        Form d 0 read value (after ++ remainder) ∧ Trivia d after remainder ∧
        Begins d remainder ∧
        error = ⟨if remainder.head? = some ')' then .unexpectedClose else .invalidSyntax,
          "Unexpected remaining input", ParseError.excerpt remainder⟩ := by
  constructor
  · intro error failed
    obtain ⟨cause, point, found, rfl⟩ := readNext_eq_error_iff.mp failed
    obtain ⟨before, stack, located⟩ := located_of_first_fault found
    exact ⟨before, point, stack, located.shape, located.opened, context_error cause text point,
      located.error_cases⟩
  · intro error
    simp only [← ParseError.snippet_eq_excerpt]
    exact readOne_eq_error_iff

/-- A closing parenthesis after a quote mark, in a text with a character of two bytes. -/
theorem reader_errors_located_quote :
    readNext .plain "(é ') x".toList =
        .error ⟨.unexpectedClose, "Unexpected ')' at position 5", some ") x"⟩ ∧
      ∃ before point stack, "(é ') x".toList = before ++ point ∧
        Opened .plain stack before point ∧ some ") x" = ParseError.excerpt point ∧
        "Unexpected ')' at position 5" =
          "Unexpected ')' at position " ++ (String.ofList before).utf8ByteSize.repr := by
  have failed : readNext .plain "(é ') x".toList =
      .error ⟨.unexpectedClose, "Unexpected ')' at position 5", some ") x"⟩ := rfl
  refine ⟨failed, ?_⟩
  obtain ⟨before, point, stack, shape, opened, context, kinds⟩ :=
    (reader_errors_located .plain _).1 _ failed
  obtain ⟨kind, -⟩ | ⟨-, -, message, -⟩ | ⟨kind, -⟩ := kinds
  · cases kind
  · exact ⟨before, point, stack, shape, opened, context, message⟩
  · cases kind

end Errors

end DynamicLisp
