import DynamicLisp.CommandLine
import DynamicLisp.Proofs.Reader.Concatenation

/-!
# Runs of the program

The arguments decide whether anything is evaluated. If so, the files are taken in order,
each in the state that the files before it left, and the exit code tells whether every one
of them was read to its end and gave a value for every form.

A file is evaluated form by form: a form is evaluated before the next one is read. As
evaluation does not change the text, this comes to reading all forms up to the first that
cannot be read, and then evaluating them.

All this is said of the run as the program does it, on a host that knows its files and its
inputs beforehand and keeps what it is given to print.
-/

namespace DynamicLisp

open Grammar

section FormByForm

/-- A text is evaluated form by form, each form before the next one is read. The loop ends
with the text, or with the failure to read a form. -/
inductive FormByForm (registry : Registry) :
    List Char → State → List Outcome → Option ParseError → State → Prop where
  | done {text s} (next : readNext .commented text = .ok none) :
      FormByForm registry text s [] none s
  | form {text form rest s outcome middle outcomes failure last}
      (next : readNext .commented text = .ok (some (form, rest)))
      (evaluated : (registry.eval Repl.frame form).outcome s = (outcome, middle))
      (later : FormByForm registry rest middle outcomes failure last) :
      FormByForm registry text s (outcome :: outcomes) failure last
  | stopped {text s error} (next : readNext .commented text = .error error) :
      FormByForm registry text s [] (some error) s

/-- The failure at which reading stopped. -/
def Ending.failure? : Ending → Option ParseError
  | .done => none
  | .stopped _ error => some error

variable {registry : Registry} {text : List Char} {s last : State} {outcomes : List Outcome}

/-- Reading first and evaluating afterwards comes to the same. -/
theorem formByForm_iff {failure : Option ParseError} :
    FormByForm registry text s outcomes failure last ↔
      registry.evalForms Repl.frame (Chunk.read .commented text).forms s = (outcomes, last) ∧
        (Chunk.read .commented text).ending.failure? = failure := by
  constructor
  · intro loop
    induction loop with
    | done next =>
        rw [Chunk.read_of_none next]
        exact ⟨rfl, rfl⟩
    | form next evaluated _ ih =>
        rw [Chunk.read_of_some next]
        refine ⟨?_, ih.2⟩
        rw [Registry.evalForms, evaluated]
        simp only [ih.1]
    | stopped next =>
        rw [Chunk.read_of_error next]
        exact ⟨rfl, rfl⟩
  · rintro ⟨evaluated, rfl⟩
    induction text using Chunk.read.induct .commented generalizing s outcomes with
    | case1 text next =>
        rw [Chunk.read_of_none next] at evaluated ⊢
        cases evaluated
        exact .done next
    | case2 text form rest next _ ih =>
        rw [Chunk.read_of_some next] at evaluated ⊢
        cases evaluated
        exact .form next rfl (ih rfl)
    | case3 text error next =>
        rw [Chunk.read_of_error next] at evaluated ⊢
        cases evaluated
        exact .stopped next

theorem exists_formByForm (registry : Registry) (text : List Char) (s : State) :
    ∃ outcomes failure last, FormByForm registry text s outcomes failure last :=
  ⟨_, _, _, formByForm_iff.mpr ⟨rfl, rfl⟩⟩

/-- Where the whole text can be read, its forms are evaluated. -/
theorem formByForm_none_iff :
    FormByForm registry text s outcomes none last ↔
      ∃ forms, readAll .commented text = .ok forms ∧
        registry.evalForms Repl.frame forms s = (outcomes, last) := by
  rw [formByForm_iff, readAll]
  cases (Chunk.read .commented text).ending with
  | done => simp [Ending.failure?]
  | stopped rest error => simp [Ending.failure?]

/-- Otherwise the forms before the first one that cannot be read. -/
theorem formByForm_some_iff {error : ParseError} :
    FormByForm registry text s outcomes (some error) last ↔
      readAll .commented text = .error error ∧
        ∃ read forms rest, text = read ++ rest ∧ Forms .commented 0 read forms rest ∧
          readNext .commented rest = .error error ∧
          registry.evalForms Repl.frame forms s = (outcomes, last) := by
  rw [formByForm_iff]
  constructor
  · rintro ⟨evaluated, failed⟩
    obtain ⟨read, rest, shape, forms, ⟨-, ending⟩ | ⟨error', next, ending⟩⟩ :=
      Chunk.exists_forms_read .commented text
    · rw [ending] at failed
      cases failed
    · rw [ending] at failed
      cases failed
      refine ⟨?_, read, _, rest, shape, forms, next, evaluated⟩
      rw [readAll]
      simp only [ending]
  · rintro ⟨-, read, forms, rest, rfl, read_forms, next, evaluated⟩
    rw [Chunk.read_append_of_forms read_forms, Chunk.read_of_error next, List.append_nil]
    exact ⟨evaluated, rfl⟩

end FormByForm

section Sources

/-- What is known of a file: its bytes, or why they cannot be had. -/
abbrev Contents := Except FileError ByteArray

/-- The text of a file with such contents. -/
def Source.ofContents (contents : Contents) : Source :=
  contents.bind Source.ofBytes

theorem Source.ofBytes_encode (text : List Char) :
    Source.ofBytes (String.ofList text).toUTF8 = .ok text := by
  have valid : String.fromUTF8? (String.ofList text).toUTF8 = some (String.ofList text) := by
    have encoded : (String.ofList text).toUTF8.IsValidUTF8 := (String.ofList text).isValidUTF8
    rw [String.fromUTF8?, dif_pos encoded]
    rfl
  simp only [Source.ofBytes, valid, String.toList_ofList]

/-- Bytes are read as the text that they encode, if there is one. -/
theorem Source.ofBytes_cases (bytes : ByteArray) :
    (∃ text, bytes = (String.ofList text).toUTF8) ∨
      (∀ text, bytes ≠ (String.ofList text).toUTF8) ∧ Source.ofBytes bytes = .error .notText := by
  by_cases valid : bytes.IsValidUTF8
  · left
    refine ⟨(String.fromUTF8 bytes valid).toList, ?_⟩
    rw [String.ofList_toList]
    rfl
  · right
    constructor
    · rintro text rfl
      exact valid (String.ofList text).isValidUTF8
    · simp only [Source.ofBytes, String.fromUTF8?, dif_neg valid]

end Sources

namespace CommandLine

/-- What became of a file: it could not be read, or its forms have outcomes and reading
stopped at a failure or at the end. -/
inductive FileResult where
  | unreadable (error : FileError)
  | evaluated (outcomes : List Outcome) (failure : Option ParseError)

namespace FileResult

/-- The lines that are printed for a file. -/
def lines (path : String) : FileResult → List String
  | unreadable error => ["Error: cannot read " ++ path ++ ": " ++ error.message]
  | evaluated outcomes none => outcomes.map Outcome.report
  | evaluated outcomes (some error) =>
    outcomes.map Outcome.report ++ ["Error: " ++ path ++ ": " ++ (Error.parse error).message]

/-- The file was read to its end, and every form has a value. -/
def Clean (result : FileResult) : Prop :=
  ∃ outcomes, result = evaluated outcomes none ∧ ∀ outcome ∈ outcomes, ∃ value, outcome = .ok value

theorem clean_evaluated_iff {outcomes : List Outcome} {failure : Option ParseError} :
    (evaluated outcomes failure).Clean ↔
      (failure.isNone && outcomes.all Outcome.isValue) = true := by
  have isValue_iff (outcome : Outcome) :
      outcome.isValue = true ↔ ∃ value, outcome = .ok value := by
    cases outcome <;> simp [Outcome.isValue]
  simp [Clean, isValue_iff]

end FileResult

/-- A file is evaluated from a state. -/
inductive FileRun (registry : Registry) : Contents → State → FileResult → State → Prop where
  | missing {error s} : FileRun registry (.error error) s (.unreadable error) s
  | notText {bytes s} (invalid : ∀ text, bytes ≠ (String.ofList text).toUTF8) :
      FileRun registry (.ok bytes) s (.unreadable .notText) s
  | evaluated {text s outcomes failure last}
      (loop : FormByForm registry text s outcomes failure last) :
      FileRun registry (.ok (String.ofList text).toUTF8) s (.evaluated outcomes failure) last

/-- Files are evaluated one after the other, each from the state that the one before it
left. -/
inductive FileRuns (registry : Registry) (contents : String → Contents) :
    List String → State → List (String × FileResult) → State → Prop where
  | nil {s} : FileRuns registry contents [] s [] s
  | cons {path paths s result middle results last}
      (first : FileRun registry (contents path) s result middle)
      (others : FileRuns registry contents paths middle results last) :
      FileRuns registry contents (path :: paths) s ((path, result) :: results) last

section Files

theorem runFile_of_formByForm {registry : Registry} {path : String} {text : List Char}
    {s last : State} {outcomes : List Outcome} {failure : Option ParseError}
    (loop : FormByForm registry text s outcomes failure last) :
    runFile registry path (.ok text) s =
      ⟨(FileResult.evaluated outcomes failure).lines path,
        failure.isNone && outcomes.all Outcome.isValue, last,
        ⟨.debug, "evaluating " ++ path⟩ :: messagesSince s last⟩ := by
  obtain ⟨evaluated, rfl⟩ := formByForm_iff.mp loop
  rw [runFile, Registry.evalChunk]
  simp only [evaluated]
  cases (Chunk.read .commented text).ending <;> rfl

/-- The report on a file is that of a run. -/
theorem runFile_run (registry : Registry) (path : String) (contents : Contents) (s : State) :
    ∃ result, FileRun registry contents s result
        (runFile registry path (.ofContents contents) s).state ∧
      (runFile registry path (.ofContents contents) s).lines = result.lines path ∧
      ((runFile registry path (.ofContents contents) s).clean = true ↔ result.Clean) := by
  cases contents with
  | error error =>
      refine ⟨.unreadable error, .missing, rfl, ?_⟩
      simp [runFile, Source.ofContents, Except.bind, FileResult.Clean]
  | ok bytes =>
      obtain ⟨text, rfl⟩ | ⟨invalid, unread⟩ := Source.ofBytes_cases bytes
      · have source : Source.ofContents (.ok (String.ofList text).toUTF8) = .ok text :=
          Source.ofBytes_encode text
        rw [source]
        obtain ⟨outcomes, failure, last, loop⟩ := exists_formByForm registry text s
        rw [runFile_of_formByForm loop]
        exact ⟨.evaluated outcomes failure, .evaluated loop, rfl,
          FileResult.clean_evaluated_iff.symm⟩
      · have source : Source.ofContents (.ok bytes) = .error .notText := unread
        rw [source]
        refine ⟨.unreadable .notText, .notText invalid, rfl, ?_⟩
        simp [runFile, FileResult.Clean]

end Files

section Consoles

variable {sources : String → Source} {inputs : List Input} (c : Console)

@[simp] theorem run_source (path : String) :
    ((Host.given sources inputs).source path).run c = pure (sources path, c) := rfl

@[simp] theorem run_print (line : String) :
    ((Host.given sources inputs).print line).run c =
      pure ((), ⟨c.out ++ [line], c.err, c.log⟩) := rfl

@[simp] theorem run_converse (options : Options) (s : State) :
    ((Host.given sources inputs).converse options s).run c =
      let (lines, repl) := Repl.run .standard inputs ⟨[], s⟩
      let messages := (messagesSince s repl.state).filter (options.logs ·.level)
      pure ((), ⟨c.out ++ lines, c.err, c.log ++ messages⟩) := rfl

/-- What items add to the console one by one, all of them add together. -/
theorem run_forM {α : Type} {action : α → StateM Console Unit} (add : Console → List α → Console)
    (one : ∀ a c, (action a).run c = pure ((), add c [a])) (none : ∀ c, add c [] = c)
    (more : ∀ a items c, add (add c [a]) items = add c (a :: items)) (items : List α) :
    (forM items action).run c = pure ((), add c items) := by
  induction items generalizing c with
  | nil => rw [List.forM_nil, StateT.run_pure, none]
  | cons a items ih => rw [List.forM_cons, StateT.run_bind, one, pure_bind, ih, more]

@[simp] theorem run_forM_print (lines : List String) :
    (forM lines (Host.given sources inputs).print).run c =
      pure ((), ⟨c.out ++ lines, c.err, c.log⟩) :=
  run_forM c (fun c lines => ⟨c.out ++ lines, c.err, c.log⟩) (fun _ _ => rfl) (by simp) (by simp)
    lines

@[simp] theorem run_forM_complain (lines : List String) :
    (forM lines (Host.given sources inputs).complain).run c =
      pure ((), ⟨c.out, c.err ++ lines, c.log⟩) :=
  run_forM c (fun c lines => ⟨c.out, c.err ++ lines, c.log⟩) (fun _ _ => rfl) (by simp) (by simp)
    lines

@[simp] theorem run_logAll (options : Options) (messages : List LogMessage) :
    ((Host.given sources inputs).logAll options messages).run c =
      pure ((), ⟨c.out, c.err, c.log ++ messages.filter (options.logs ·.level)⟩) :=
  run_forM c (fun c messages => ⟨c.out, c.err, c.log ++ messages⟩) (fun _ _ => rfl) (by simp)
    (by simp) _

/-- The lines that the interactive loop prints, from the banner on. -/
def replLines (registry : Registry) (inputs : List Input) (s : State) : List String :=
  Repl.banner ++ (Repl.run registry inputs ⟨[], s⟩).1 ++ [Repl.farewell]

/-- One file, and then the others. -/
theorem run_runFiles_cons {options : Options} {path : String} {paths : List String}
    {s last : State} {first : FileReport} {c' : Console} {clean : Bool}
    (evaluated : runFile .standard path (sources path) s = first)
    (others : ((Host.given sources inputs).runFiles options paths first.state).run
        ⟨c.out ++ first.lines, c.err, c.log ++ first.log.filter (options.logs ·.level)⟩ =
      pure ((clean, last), c')) :
    ((Host.given sources inputs).runFiles options (path :: paths) s).run c =
      pure ((first.clean && clean, last), c') := by
  simp [Host.runFiles, evaluated, others]

theorem run_eq {args : List String} {exit : Nat} {out err : List String} {log : List LogMessage}
    (ran : ((Host.given sources inputs).run args).run ⟨[], [], []⟩ =
      pure (exit, ⟨out, err, log⟩)) :
    run args sources inputs = ⟨exit, out, err, log⟩ := by
  rw [run, ran]
  rfl

/-- The files, and then the loop. -/
theorem run_of_options {args : List String} {options : Options} {s : State} {clean : Bool}
    {out : List String} {log : List LogMessage} (invoked : invocation args = .run options)
    (evaluated : ((Host.given sources inputs).runFiles options options.files .initial).run
      ⟨[], [], []⟩ = pure ((clean, s), ⟨out, [], log⟩)) :
    ∃ log', run args sources inputs =
      ⟨if clean then 0 else 1, out ++ if options.repl then replLines .standard inputs s else [],
        [], log'⟩ := by
  cases looped : options.repl with
  | false =>
      refine ⟨log, run_eq ?_⟩
      simp [Host.run, invoked, evaluated, looped]
  | true =>
      let messages := messagesSince s (Repl.run .standard inputs ⟨[], s⟩).2.state
      refine ⟨log ++ messages.filter (options.logs ·.level), run_eq ?_⟩
      simp [Host.run, invoked, evaluated, looped, replLines, messages]

end Consoles

section Runs

/-- Files are evaluated in order, whatever is typed afterwards. -/
theorem runFiles_runs (contents : String → Contents) (options : Options) (paths : List String)
    (s : State) :
    ∃ results clean last, FileRuns .standard contents paths s results last ∧
      (clean = true ↔ ∀ result ∈ results, result.2.Clean) ∧
      ∀ inputs c, ∃ log,
        ((Host.given (fun path => .ofContents (contents path)) inputs).runFiles options paths
            s).run c =
          pure ((clean, last),
            ⟨c.out ++ results.flatMap (fun (path, result) => result.lines path), c.err, log⟩) := by
  induction paths generalizing s with
  | nil =>
      refine ⟨[], true, s, .nil, by simp, fun inputs c => ⟨c.log, ?_⟩⟩
      rw [Host.runFiles, StateT.run_pure, List.flatMap_nil, List.append_nil]
  | cons path paths ih =>
      obtain ⟨result, first, lines, clean⟩ := runFile_run .standard path (contents path) s
      obtain ⟨results, clean', last, others, clean_iff, later⟩ := ih _
      let report := runFile .standard path (.ofContents (contents path)) s
      refine ⟨(path, result) :: results, report.clean && clean', last, .cons first others, ?_,
        fun inputs c => ?_⟩
      · rw [List.forall_mem_cons, ← clean, ← clean_iff]
        exact Bool.and_eq_true_iff
      · obtain ⟨log, ran⟩ := later inputs _
        refine ⟨log, ?_⟩
        rw [run_runFiles_cons c rfl ran, lines, List.flatMap_cons, List.append_assoc]

end Runs

section Arguments

/-- The options of a run. -/
def switches : List String := ["--no-repl", "-v", "--verbose"]

/-- The options that ask for help. -/
def helpFlags : List String := ["-h", "--help"]

/-- An argument that keeps the program from running: it asks for help, or it looks like an
option and is none. -/
def decides (arg : String) : Bool :=
  arg ∈ helpFlags || (arg.toList.head? = some '-' && arg ∉ switches)

variable {options : Options} {args : List String}

theorem mem_switches {arg : String} :
    arg ∈ switches ↔ arg = "--no-repl" ∨ arg = "-v" ∨ arg = "--verbose" := by
  simp [switches]

theorem mem_helpFlags {arg : String} : arg ∈ helpFlags ↔ arg = "-h" ∨ arg = "--help" := by
  simp [helpFlags]

theorem decides_switch {arg : String} (switch : arg ∈ switches) : decides arg = false := by
  rcases mem_switches.mp switch with rfl | rfl | rfl <;> decide

theorem ofArgs_switch {arg : String} (switch : arg ∈ switches) :
    ∃ verbose, Invocation.ofArgs options (arg :: args) =
      .ofArgs ⟨options.files, options.repl && arg ≠ "--no-repl", verbose⟩ args := by
  rcases mem_switches.mp switch with rfl | rfl | rfl
  · exact ⟨options.verbose, by simp [Invocation.ofArgs]⟩
  · exact ⟨true, by simp [Invocation.ofArgs]⟩
  · exact ⟨true, by simp [Invocation.ofArgs]⟩

/-- An argument that is no switch decides, or it names a file. -/
theorem ofArgs_other {arg : String} (other : arg ∉ switches) :
    Invocation.ofArgs options (arg :: args) =
      if decides arg then if arg ∈ helpFlags then .help else .unknownOption arg
      else .ofArgs ⟨arg :: options.files, options.repl, options.verbose⟩ args := by
  obtain ⟨noLoop, quiet⟩ := not_or.mp (mem_switches.not.mp other)
  rw [Invocation.ofArgs, if_neg noLoop, if_neg quiet]
  by_cases help : arg ∈ helpFlags
  · rw [if_pos (mem_helpFlags.mp help)]
    simp [decides, help]
  · rw [if_neg (mem_helpFlags.not.mp help)]
    simp [decides, help, other]

theorem ofArgs_of_decides {arg : String} (found : args.find? decides = some arg) :
    Invocation.ofArgs options args = if arg ∈ helpFlags then .help else .unknownOption arg := by
  induction args generalizing options with
  | nil => cases found
  | cons first args ih =>
      by_cases switch : first ∈ switches
      · rw [List.find?_cons_of_neg (by simp [decides_switch switch])] at found
        obtain ⟨verbose, next⟩ := ofArgs_switch switch
        rw [next, ih found]
      · rw [ofArgs_other switch]
        rw [List.find?_cons] at found
        cases final : decides first with
        | true =>
            simp only [final, Option.some.injEq] at found
            subst found
            rfl
        | false =>
            simp only [final] at found
            exact ih found

theorem ofArgs_of_none (undecided : args.find? decides = none) :
    ∃ verbose, Invocation.ofArgs options args =
      .run ⟨options.files.reverse ++ args.filter (· ∉ switches),
        options.repl && "--no-repl" ∉ args, verbose⟩ := by
  induction args generalizing options with
  | nil => exact ⟨options.verbose, by simp [Invocation.ofArgs]⟩
  | cons first args ih =>
      rw [List.find?_eq_none] at undecided
      obtain ⟨final, others⟩ := List.forall_mem_cons.mp undecided
      rw [← List.find?_eq_none] at others
      by_cases switch : first ∈ switches
      · obtain ⟨verbose, next⟩ := @ofArgs_switch options args first switch
        obtain ⟨verbose', next'⟩ := ih others
        refine ⟨verbose', ?_⟩
        rw [next, next']
        simp [switch, eq_comm, Bool.and_assoc]
      · have noLoop : "--no-repl" ≠ first := by
          rintro rfl
          exact switch (by decide)
        rw [ofArgs_other switch, if_neg final]
        obtain ⟨verbose, next⟩ := ih others
        refine ⟨verbose, ?_⟩
        rw [next]
        simp [switch, noLoop]

theorem run_of_decides {arg : String} (found : args.find? decides = some arg)
    (sources : String → Source) (inputs : List Input) :
    run args sources inputs =
      ⟨if arg ∈ helpFlags then 0 else 2, [],
        if arg ∈ helpFlags then usage else unknownOptionLines arg, []⟩ := by
  have invoked : invocation args = if arg ∈ helpFlags then .help else .unknownOption arg :=
    ofArgs_of_decides found
  by_cases help : arg ∈ helpFlags
  · simp only [if_pos help] at invoked ⊢
    apply run_eq
    simp [Host.run, invoked]
  · simp only [if_neg help] at invoked ⊢
    apply run_eq
    simp [Host.run, invoked]

end Arguments

/-- An argument that asks for help, or that looks like an option and is none, keeps the
program from running: the first of them gives the exit code, nothing is printed or logged,
and no file makes a difference. Otherwise all arguments but the switches are files. They
are evaluated in order, form by form, and the exit code says whether all of them are clean,
whatever is typed afterwards. The forms of a file are those that reading the whole text
gives, or, where that fails, those before the first that cannot be read, with the same
error. -/
theorem run_evaluates_files (args : List String) (contents : String → Contents) :
    (∀ arg, args.find? decides = some arg →
      ∃ err, ∀ sources inputs,
        run args sources inputs = ⟨if arg ∈ helpFlags then 0 else 2, [], err, []⟩) ∧
    (args.find? decides = none →
      ∃ results last,
        FileRuns .standard contents (args.filter (· ∉ switches)) .initial results last ∧
        ∀ inputs report, run args (fun path => .ofContents (contents path)) inputs = report →
          (report.exit = 0 ∨ report.exit = 1) ∧
          (report.exit = 0 ↔ ∀ result ∈ results, result.2.Clean) ∧
          report.out = results.flatMap (fun (path, result) => result.lines path) ++
            if "--no-repl" ∈ args then [] else replLines .standard inputs last) ∧
    ∀ text s outcomes last,
      (FormByForm .standard text s outcomes none last ↔
        ∃ forms, readAll .commented text = .ok forms ∧
          Registry.standard.evalForms Repl.frame forms s = (outcomes, last)) ∧
      ∀ error, FormByForm .standard text s outcomes (some error) last ↔
        readAll .commented text = .error error ∧
          ∃ read forms rest, text = read ++ rest ∧ Forms .commented 0 read forms rest ∧
            readNext .commented rest = .error error ∧
            Registry.standard.evalForms Repl.frame forms s = (outcomes, last) := by
  refine ⟨?_, ?_, ?_⟩
  · intro arg found
    exact ⟨_, run_of_decides found⟩
  · intro undecided
    obtain ⟨verbose, invoked⟩ := @ofArgs_of_none .default args undecided
    obtain ⟨results, clean, last, runs, clean_iff, ran⟩ :=
      runFiles_runs contents _ (args.filter (· ∉ switches)) .initial
    refine ⟨results, last, runs, ?_⟩
    rintro inputs report rfl
    obtain ⟨log, ran⟩ := ran inputs ⟨[], [], []⟩
    obtain ⟨log', whole⟩ := run_of_options invoked ran
    rw [whole, ← clean_iff]
    refine ⟨?_, ?_, ?_⟩
    · split <;> simp
    · simp
    · by_cases silent : "--no-repl" ∈ args <;> simp [silent, Options.default]
  · intro text s outcomes last
    exact ⟨formByForm_none_iff, fun _ => formByForm_some_iff⟩

/-- A file that cannot be found does not keep the next one from being evaluated, and shows
in the exit code. -/
theorem run_evaluates_files_missing :
    ∃ results last,
      FileRuns .standard (fun path => if path = "a" then .error .missing else .ok "7".toUTF8)
        ["a", "b"] .initial results last ∧
      ∀ inputs,
        (run ["a", "--no-repl", "b"] (fun path => .ofContents
          (if path = "a" then .error .missing else .ok "7".toUTF8)) inputs).exit = 1 := by
  obtain ⟨results, last, runs, printed⟩ :=
    (run_evaluates_files ["a", "--no-repl", "b"]
      fun path => if path = "a" then .error .missing else .ok "7".toUTF8).2.1 (by decide)
  refine ⟨results, last, runs, ?_⟩
  intro inputs
  obtain ⟨code, clean, -⟩ := printed inputs _ rfl
  refine code.resolve_left ?_
  intro zero
  cases runs with
  | cons first _ =>
      obtain ⟨outcomes, same, -⟩ := clean.mp zero _ List.mem_cons_self
      cases first
      cases same

end CommandLine

end DynamicLisp
