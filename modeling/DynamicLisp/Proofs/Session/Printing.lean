import DynamicLisp.Proofs.Reader.Snippets
import DynamicLisp.Proofs.Value.Spelling

/-!
# What a session prints

Errors quote names and values of the program, and parse errors quote the text itself. In
a session whose forms were read in one dialect, the names and values have legible
symbols only, and the snippet of a text shows its line feeds by two other characters. So
whatever the session prints is one line, and a value that text can write is read back
from what was printed.
-/

namespace DynamicLisp

open Grammar Value

variable {d : Dialect}

section Messages

variable {error : Error}

theorem Arity.oneLine (arity : Arity) : OneLine arity.text := by
  cases arity with
  | exact n | atLeast n => exact .append (by decide) (oneLine_repr n)
  | any => decide

theorem Error.oneLine_arity (expected : Arity) (got : Nat) {operator : Option String}
    (named : ∀ name, operator = some name → OneLine name) :
    OneLine (Error.arity expected got operator).message := by
  have goesOn {front : String} (line : OneLine front) :
      OneLine (front ++ "expected " ++ expected.text ++ " arguments, got " ++ got.repr) :=
    (((line.append (by decide)).append expected.oneLine).append (by decide)).append
      (oneLine_repr got)
  have start : OneLine "ArityError: " := by decide
  cases operator with
  | none => exact goesOn (start.append (by decide))
  | some name => exact goesOn (start.append ((named name rfl).append (by decide)))

theorem Error.oneLine_namedBy {name : String} (legible : OneLine name)
    (line : OneLine error.message) : OneLine (error.namedBy name).message := by
  unfold namedBy
  split
  · apply oneLine_arity
    intro found same
    exact Option.some.inj same ▸ legible
  · exact line

theorem Error.oneLine_type {fault : TypeFault} (line : OneLine fault.message) :
    OneLine (Error.type fault).message :=
  .append (by decide) line

theorem Error.oneLine_structural {fault : ShapeFault} (line : OneLine fault.message) :
    OneLine (Error.structural fault).message :=
  .append (by decide) line

theorem SpecialForms.oneLine_of_paramNames {form : String} {params : List Value}
    (named : OneLine form) (legible : ∀ param ∈ params, param.LegibleSymbols d)
    (failed : paramNames form params = .error error) : OneLine error.message := by
  induction params with
  | nil => cases failed
  | cons param params ih =>
      obtain ⟨first, rest⟩ := List.forall_mem_cons.mp legible
      rw [paramNames.eq_def] at failed
      split at failed
      · cases failed
      · next name later same =>
        obtain ⟨rfl, rfl⟩ := List.cons.inj same
        cases found : paramNames form params with
        | ok names =>
            rw [found] at failed
            cases failed
        | error reason =>
            rw [found] at failed
            cases failed
            exact ih rest found
      · next got later _ same =>
        obtain ⟨rfl, rfl⟩ := List.cons.inj same
        cases failed
        exact Error.oneLine_structural ((named.append (by decide)).append first.oneLine_mention)

theorem SpecialForms.oneLine_of_target {signature : Value} (legible : signature.LegibleSymbols d)
    (failed : target signature = .error error) : OneLine error.message := by
  unfold target at failed
  split at failed
  · cases failed
  · next name params =>
    obtain ⟨_, rest⟩ := List.forall_mem_cons.mp (legibleSymbols_list.mp legible)
    cases found : paramNames "define" params with
    | ok names =>
        rw [found] at failed
        cases failed
    | error reason =>
        rw [found] at failed
        cases failed
        exact oneLine_of_paramNames (by decide) rest found
  · cases failed
    decide
  · next got items _ =>
    obtain ⟨first, _⟩ := List.forall_mem_cons.mp (legibleSymbols_list.mp legible)
    cases failed
    exact Error.oneLine_structural (.append (by decide) first.oneLine_mention)
  · cases failed
    exact Error.oneLine_structural (.append (by decide) legible.oneLine_mention)

theorem SpecialForms.oneLine_of_parameters {names : Value} (legible : names.LegibleSymbols d)
    (failed : parameters names = .error error) : OneLine error.message := by
  unfold parameters at failed
  split at failed
  · exact oneLine_of_paramNames (by decide) (legibleSymbols_list.mp legible) failed
  · cases failed
    exact Error.oneLine_structural (.append (by decide) legible.oneLine_mention)

theorem Registry.oneLine_of_resolve {registry : Registry} {store : Store} {f : FrameId}
    {head : Value} (legible : head.LegibleSymbols d) (holds : store.Holds (LegibleSymbols d))
    (failed : registry.resolve store f head = .error error) : OneLine error.message := by
  have resolution := registry.resolution store f head
  rw [failed] at resolution
  cases resolution with
  | @notCallable name bound _ _ found =>
      have named := (legibleSymbols_symbol.mp legible).oneLine
      have quoted : OneLine ("'" ++ name ++ "' is not callable: bound to ") :=
        (OneLine.append (by decide) named).append (by decide)
      exact Error.oneLine_type (quoted.append (holds.get? found).oneLine_mention)
  | unbound => exact .append (by decide) (legibleSymbols_symbol.mp legible).oneLine
  | other => exact .append (by decide) legible.oneLine_mention

end Messages

section Primitives

/-- A primitive whose complaints are one line where its arguments have legible symbols. -/
def Primitive.ComplainsInLine (d : Dialect) (primitive : Primitive) : Prop :=
  ∀ f args s error s', (∀ arg ∈ args, arg.LegibleSymbols d) →
    (primitive.run f args).outcome s = (.error error, s') → OneLine error.message

theorem Arithmetic.oneLine_of_fold {operation : String} {combine : Int → Int → Int}
    {start : Integer} {ns : List Integer} {error : Error} (named : OneLine operation)
    (failed : fold operation combine start ns = .error error) : OneLine error.message := by
  rw [eq_overflow_of_fold failed]
  exact .append (by decide) (.append (by decide) named)

theorem Primitive.complainsInLine_ofIntegers {function : List Integer → Except Error Value}
    (lines : ∀ ns error, function ns = .error error → OneLine error.message) :
    (ofIntegers .any function).ComplainsInLine d := by
  intro f args s error s' legible ran
  obtain ⟨ns, failed⟩ | ⟨other, member, failed⟩ := of_ran_ofIntegers ran
  · exact lines ns error failed
  · cases failed
    exact Error.oneLine_type (.append (by decide) (legible other member).oneLine_mention)

theorem Primitive.complainsInLine_of_find? {name : String} {primitive : Primitive}
    (found : Registry.standard.primitives.find? name = some primitive) :
    primitive.ComplainsInLine d := by
  refine forall_standard ?car ?cdr ?cons ?compare ?add ?subtract ?multiply found
  case car =>
    intro f args s error s' legible ran
    obtain ⟨arg, rfl, failed⟩ | ⟨-, failed⟩ := of_ran_ofFunction_one ran
    · rw [Lists.car.eq_def] at failed
      split at failed
      · cases failed
      · cases failed
        decide
      · cases failed
        exact Error.oneLine_type
          (.append (by decide) (legible arg List.mem_cons_self).oneLine_mention)
    · cases failed
      exact Error.oneLine_arity _ _ (by simp)
  case cdr =>
    intro f args s error s' legible ran
    obtain ⟨arg, rfl, failed⟩ | ⟨-, failed⟩ := of_ran_ofFunction_one ran
    · rw [Lists.cdr.eq_def] at failed
      split at failed
      · cases failed
        decide
      · cases failed
      · cases failed
      · cases failed
        exact Error.oneLine_type
          (.append (by decide) (legible arg List.mem_cons_self).oneLine_mention)
    · cases failed
      exact Error.oneLine_arity _ _ (by simp)
  case cons =>
    intro f args s error s' legible ran
    obtain ⟨item, tail, rfl, failed⟩ | ⟨-, failed⟩ := of_ran_ofFunction_two ran
    · rw [Lists.cons.eq_def] at failed
      split at failed
      · cases failed
      · cases failed
      · cases failed
        exact Error.oneLine_type (.append (by decide) (legible tail (by simp)).oneLine_mention)
    · cases failed
      exact Error.oneLine_arity _ _ (by simp)
  case compare =>
    intro relation f args s error s' _ failed
    cases failed
  case add =>
    exact complainsInLine_ofIntegers fun _ _ => Arithmetic.oneLine_of_fold (by decide)
  case subtract =>
    refine complainsInLine_ofIntegers ?_
    intro ns error failed
    cases ns with
    | nil => cases failed
    | cons n ns => exact Arithmetic.oneLine_of_fold (by decide) failed
  case multiply =>
    exact complainsInLine_ofIntegers fun _ _ => Arithmetic.oneLine_of_fold (by decide)

theorem Primitive.ComplainsInLine.of_runChecked {primitive : Primitive}
    (lines : primitive.ComplainsInLine d) {f : FrameId} {args : List Value} {error : Error}
    {s s' : State} (legible : ∀ arg ∈ args, arg.LegibleSymbols d)
    (failed : (primitive.runChecked f args).outcome s = (.error error, s')) :
    OneLine error.message := by
  rw [outcome_runChecked] at failed
  split at failed
  · exact lines f args s error s' legible failed
  · cases failed
    exact Error.oneLine_arity _ _ (by simp)

end Primitives

section Origins

/-- The name under which an operator was found. -/
def Operator.name? : Operator → Option String
  | form name _ => some name
  | primitive name _ => some name
  | closure name _ _ => name

/-- An operator has the name of the symbol that stands at the head. -/
theorem Registry.eq_symbol_of_resolve {registry : Registry} {store : Store} {f : FrameId}
    {head : Value} {operator : Operator} {name : String}
    (resolved : registry.resolve store f head = .ok operator)
    (named : operator.name? = some name) : head = .symbol name := by
  have resolution := registry.resolution store f head
  rw [resolved] at resolution
  cases resolution <;> cases named <;> rfl

theorem Registry.oneLine_name {registry : Registry} {store : Store} {f : FrameId} {head : Value}
    {operator : Operator} (legible : head.LegibleSymbols d)
    (resolved : registry.resolve store f head = .ok operator) (name : String)
    (named : operator.name? = some name) : OneLine name := by
  rw [eq_symbol_of_resolve resolved named] at legible
  exact (legibleSymbols_symbol.mp legible).oneLine

/-- Where code and store have legible symbols, every error that is raised is one line. -/
theorem Config.Raises.oneLine {c : Config} {error : Error} (raised : c.Raises .standard error)
    (disciplined : c.Disciplined (LegibleSymbols d) (LegibleSymbols d)) :
    OneLine error.message := by
  have fits := discipline_legibleSymbols d
  obtain ⟨code, holds⟩ := disciplined
  cases raised with
  | unbound => exact .append (by decide) (legibleSymbols_symbol.mp code).oneLine
  | unresolved resolved => exact Registry.oneLine_of_resolve (fits.head code) holds resolved
  | wrongCount resolved =>
      exact Error.oneLine_arity _ _ (Registry.oneLine_name (fits.head code) resolved)
  | malformedTarget _ shape =>
      exact SpecialForms.oneLine_of_target (fits.items code _ (by simp)) shape
  | malformedParameters _ shape =>
      exact SpecialForms.oneLine_of_parameters (fits.items code _ (by simp)) shape
  | primitive resolved evaluated refused =>
      have found := Registry.find?_primitive_of_resolve resolved
      have kept := evaluated.keeps fits (fits.operands code) holds
      apply Error.oneLine_namedBy (Registry.oneLine_name (fits.head code) resolved _ rfl)
      exact (Primitive.complainsInLine_of_find? found).of_runChecked
        (legibleSymbols_list.mp (kept.2 _ rfl)) refused
  | callCount resolved =>
      exact Error.oneLine_arity _ _ (Registry.oneLine_name (fits.head code) resolved)
  | callTooDeep =>
      exact (((OneLine.append (by decide) (oneLine_repr _)).append (by decide)).append
        (by decide)).append (by decide)

end Origins

section Snippets

theorem ParseError.oneLine_near (kind : Kind) {message : String} (line : OneLine message)
    (rest : List Char) : OneLine (near kind message rest).text := by
  rw [near, text]
  split
  · exact line
  · next context same =>
    exact ((line.append (by decide)).append (not_mem_of_snippet same).1).append (by decide)

theorem Reader.Cause.oneLine (cause : Cause) (text rest : List Char) :
    OneLine (cause.error text rest).text := by
  cases cause with
  | tooDeep => exact ParseError.oneLine_near _ (by decide) rest
  | endOfText => exact ParseError.oneLine_near _ (by decide) rest
  | strayClose => exact ParseError.oneLine_near _ (.append (by decide) (oneLine_repr _)) rest

variable {text : List Char} {error : ParseError}

theorem oneLine_of_readNext (failed : readNext d text = .error error) :
    OneLine error.text := by
  obtain ⟨cause, point, -, rfl⟩ := readNext_eq_error_iff.mp failed
  exact cause.oneLine text point

theorem oneLine_of_readAll (failed : readAll d text = .error error) :
    OneLine error.text := by
  simp only [readAll] at failed
  split at failed
  · cases failed
  · next stopped =>
    cases failed
    exact oneLine_of_readNext (Chunk.readNext_of_stopped stopped)

theorem oneLine_of_readOne (failed : readOne d text = .error error) :
    OneLine error.text := by
  unfold readOne at failed
  split at failed
  · split at failed
    · cases failed
    · cases failed
      exact ParseError.oneLine_near _ (by decide) _
  · cases failed
    exact Reader.Cause.oneLine _ _ _
  · cases failed
    exact Reader.Cause.oneLine _ _ _

end Snippets

section Sessions

/-- The reader gives the value for some text in the dialect. -/
inductive Value.IsReadIn (d : Dialect) (value : Value) : Prop where
  | one {text} (read : readOne d text = .ok value)
  | next {text rest} (read : readNext d text = .ok (some (value, rest)))
  | all {text values} (read : readAll d text = .ok values) (member : value ∈ values)

theorem Value.IsReadIn.legibleSymbols {value : Value} (read : value.IsReadIn d) :
    value.LegibleSymbols d := by
  cases read with
  | one read => exact (readable_of_readOne read).legible.legibleSymbols
  | next read => exact (readable_of_readNext read).legible.legibleSymbols
  | all read member => exact (readable_of_readAll read value member).legible.legibleSymbols

variable {Code Data : Value → Prop} {s : State}

/-- The states of a session in the root frame, in which the frames bind data. -/
structure State.Carries (Data : Value → Prop) (s : State) : Prop where
  present : 0 < s.store.size
  holds : s.store.Holds Data

theorem State.carries_initial (Data : Value → Prop) : State.initial.Carries Data :=
  ⟨by decide, Store.holds_initial Data⟩

/-- One form. -/
theorem Registry.eval_carries (fits : Discipline Code Data) {form : Value} (code : Code form)
    (carries : s.Carries Data) : ((standard.eval 0 form).outcome s).2.Carries Data := by
  obtain ⟨present, holds⟩ := carries
  obtain ⟨outcome, s', ran, h⟩ := standard_outcome present form
  rw [ran]
  exact ⟨h.writesOwn.lt_size present, (h.keeps fits code holds).1⟩

/-- All forms, whether or not they fail. -/
theorem Registry.evalForms_carries (fits : Discipline Code Data) {forms : List Value}
    (code : ∀ form ∈ forms, Code form) (carries : s.Carries Data) :
    (standard.evalForms 0 forms s).2.Carries Data := by
  induction forms generalizing s with
  | nil => exact carries
  | cons form forms ih =>
      obtain ⟨first, rest⟩ := List.forall_mem_cons.mp code
      exact ih rest (eval_carries fits first carries)

/-- What can be said of an evaluation, at any depth of calls, in a session on forms that
were read in the dialect. -/
structure Config.PrintsLines (d : Dialect) (c : Config) : Prop where
  /-- The frames bind values with legible symbols. -/
  store : c.state.store.Holds (LegibleSymbols d)
  /-- There is an outcome, and what holds of the frames holds after it too. A value has
  legible symbols and a text of one line, from which it is read back if text can write it
  and its lists do not stand too deep. An error is one line. -/
  ends : ∃ outcome s', (Registry.standard.eval c.frame c.expr).outcome c.state = (outcome, s') ∧
    s'.store.Holds (LegibleSymbols d) ∧
    (∀ value, outcome = .ok value → value.LegibleSymbols d ∧ OneLine value.text ∧
      (value.Textual → value.nesting < depthLimit → readOne d value.text.toList = .ok value)) ∧
    ∀ error, outcome = .error error → OneLine error.message

theorem Config.Disciplined.printsLines {c : Config}
    (disciplined : c.Disciplined (LegibleSymbols d) (LegibleSymbols d))
    (present : c.frame < c.state.store.size) :
    c.PrintsLines d := by
  have fits := discipline_legibleSymbols d
  obtain ⟨outcome, s', ran, h⟩ := Registry.standard_outcome present c.expr
  obtain ⟨holds, data⟩ := h.keeps fits disciplined.code disciplined.holds
  refine ⟨disciplined.holds, outcome, s', ran, holds, ?_, ?_⟩
  · intro value same
    have legible := data value same
    refine ⟨legible, legible.oneLine, ?_⟩
    intro textual shallow
    exact Readable.readOne_text ⟨textual.legible legible, shallow⟩
  · rintro error rfl
    have fails : c.Fails .standard error := ⟨s', h⟩
    obtain ⟨origin, steps, raised⟩ := fails.exists_origin present
    exact raised.oneLine (disciplined.of_demands fits steps)

/-- In a session on forms that were read in one dialect, evaluated one after the other in
an empty root frame under the standard registry and whether or not they fail, whatever is
printed is one line: every value, every error and every parse error. All symbols are
legible in the dialect, and a value that text can write is read back from its text. This
holds of every evaluation that one of the forms goes through. -/
theorem session_prints_lines {before : List Value} {form : Value}
    (read : ∀ expr ∈ before ++ [form], expr.IsReadIn d) {c : Config}
    (reached : Relation.ReflTransGen (Demands .standard)
      ⟨0, form, (Registry.standard.evalForms 0 before .initial).2⟩ c) :
    c.PrintsLines d ∧ ∀ text error,
      readOne d text = .error error ∨ readAll d text = .error error ∨
        readNext d text = .error error →
          OneLine error.text ∧ OneLine (Error.parse error).message := by
  have fits := discipline_legibleSymbols d
  constructor
  · have code : ∀ expr ∈ before ++ [form], expr.LegibleSymbols d :=
      fun expr member => (read expr member).legibleSymbols
    obtain ⟨earlier, last⟩ := List.forall_mem_append.mp code
    obtain ⟨present, holds⟩ :=
      Registry.evalForms_carries fits earlier (State.carries_initial _)
    have disciplined : Config.Disciplined (LegibleSymbols d) (LegibleSymbols d)
        ⟨0, form, (Registry.standard.evalForms 0 before .initial).2⟩ :=
      ⟨last form List.mem_cons_self, holds⟩
    exact (disciplined.of_demands fits reached).printsLines
      (Config.present_of_demands reached present)
  · intro text error failed
    have line : OneLine error.text := by
      obtain failed | failed | failed := failed
      · exact oneLine_of_readOne failed
      · exact oneLine_of_readAll failed
      · exact oneLine_of_readNext failed
    exact ⟨line, .append (by decide) line⟩

end Sessions

/-- The form `'(a;b 1)`, in which the semicolon belongs to a symbol. -/
def Value.quotedSemicolon : Value := .quoted (.list [.symbol "a;b", .int 1])

/-- In the dialect without comments the symbol is legible, and the list is read back from
what is printed for it. -/
theorem session_prints_lines_semicolon :
    Value.quotedSemicolon.IsReadIn .plain ∧
      Config.PrintsLines .plain ⟨0, .quotedSemicolon, .initial⟩ ∧
      ((Registry.standard.eval 0 .quotedSemicolon).outcome .initial).1 =
        .ok (.list [.symbol "a;b", .int 1]) := by
  have text : readOne .plain (Dialect.quoteMark :: "(a;b 1)".toList) = .ok .quotedSemicolon := rfl
  have read : ∀ expr ∈ [] ++ [Value.quotedSemicolon], expr.IsReadIn .plain := by
    simpa using Value.IsReadIn.one text
  obtain ⟨prints, _⟩ := session_prints_lines read .refl
  exact ⟨.one text, prints, rfl⟩

end DynamicLisp
