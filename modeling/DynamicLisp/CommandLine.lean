import DynamicLisp.Registry.Standard
import DynamicLisp.Repl

/-!
# The command line

The program evaluates the files it is given, in order and in one frame, and then
starts the interactive loop. A file that cannot be read, or a form that fails,
does not stop it, but shows in the exit code.

What a run asks of the system is collected in a `Host`, and the run is written once
for all of them. On files and inputs that are given beforehand it is a function, whose
result says what is printed and with which code the program exits.
-/

namespace DynamicLisp

/-- Why a file cannot be read. -/
inductive FileError where
  | missing
  | directory
  | notText
  /-- A reason given by the system. -/
  | other (reason : String)

/-- The wording of a file error. -/
def FileError.message : FileError → String
  | missing => "No such file or directory (os error 2)"
  | directory => "Is a directory (os error 21)"
  | notText => "stream did not contain valid UTF-8"
  | other reason => reason

/-- The text of a file, or why it has none. -/
abbrev Source := Except FileError (List Char)

/-- The text that the bytes of a file stand for. -/
def Source.ofBytes (bytes : ByteArray) : Source :=
  match String.fromUTF8? bytes with
  | some text => .ok text.toList
  | none => .error .notText

namespace CommandLine

/-- What the arguments ask for, where they ask for a run. -/
structure Options where
  files : List String
  repl : Bool
  verbose : Bool

/-- No files, and the interactive loop. -/
def Options.default : Options := ⟨[], true, false⟩

/-- What the arguments ask for. -/
inductive Invocation where
  | run (options : Options)
  | help
  | unknownOption (flag : String)

/-- Goes through the arguments from left to right. The first that asks for help,
or that looks like an option and is none, decides. -/
def Invocation.ofArgs : Options → List String → Invocation
  | options, [] => run ⟨options.files.reverse, options.repl, options.verbose⟩
  | options, arg :: args =>
    if arg = "--no-repl" then ofArgs ⟨options.files, false, options.verbose⟩ args
    else if arg = "-v" ∨ arg = "--verbose" then ofArgs ⟨options.files, options.repl, true⟩ args
    else if arg = "-h" ∨ arg = "--help" then help
    else if arg.toList.head? = some '-' then unknownOption arg
    else ofArgs ⟨arg :: options.files, options.repl, options.verbose⟩ args

/-- What the arguments of the program ask for. -/
def invocation (args : List String) : Invocation :=
  .ofArgs .default args

/-- The summary of the options. -/
def usage : List String :=
  ["Usage: minilisp [options] [file ...]",
    "",
    "Evaluates each file in order, then starts the interactive loop.",
    "",
    "Options:",
    "  --no-repl       Exit after evaluating the files",
    "  -v, --verbose   Debug logging (otherwise RUST_LOG, default warn)",
    "  -h, --help      Show this message"]

/-- The answer to an option that does not exist. -/
def unknownOptionLines (flag : String) : List String :=
  ("minilisp: unknown option '" ++ flag ++ "'") :: usage

/-- Whether messages of a level are logged, unless the environment of the program says
otherwise. -/
def Options.logs (options : Options) : Level → Bool
  | .trace => false
  | .debug => options.verbose
  | .warn => true

/-- What became of a file. -/
structure FileReport where
  lines : List String
  /-- Whether the file was read to its end and no form failed. -/
  clean : Bool
  state : State
  /-- What the logger is handed, whether or not it shows it. -/
  log : List LogMessage

/-- The records that were left since an earlier state, in words. -/
def messagesSince (earlier later : State) : List LogMessage :=
  (later.log.toList.drop earlier.log.size).map .ofRecord

/-- Evaluates a file. -/
def runFile (registry : Registry) (path : String) (source : Source) (s : State) : FileReport :=
  match source with
  | .error error => ⟨["Error: cannot read " ++ path ++ ": " ++ error.message], false, s, []⟩
  | .ok text =>
    let (outcomes, ending, last) := registry.evalChunk Repl.frame text s
    let log := ⟨.debug, "evaluating " ++ path⟩ :: messagesSince s last
    match ending with
    | .done => ⟨outcomes.map Outcome.report, outcomes.all Outcome.isValue, last, log⟩
    | .stopped _ error =>
      ⟨outcomes.map Outcome.report ++ ["Error: " ++ path ++ ": " ++ (Error.parse error).message],
        false, last, log⟩

/-- What a run asks of the system it runs on. -/
structure Host (m : Type → Type) where
  /-- Reads a file. -/
  source : String → m Source
  /-- Prints a line. -/
  print : String → m Unit
  /-- Prints a line apart from the output. -/
  complain : String → m Unit
  /-- Takes a message for the log. -/
  log : LogMessage → m Unit
  /-- Runs the interactive loop on what is typed, until it ends. -/
  converse : Options → State → m Unit

namespace Host

variable {m : Type → Type} [Monad m] (host : Host m)

/-- Logs messages as far as the options ask for them. -/
def logAll (options : Options) (messages : List LogMessage) : m Unit :=
  (messages.filter (options.logs ·.level)).forM host.log

/-- Evaluates files in order, each in the state that the one before left. Tells whether all
of them were clean. -/
def runFiles (options : Options) : List String → State → m (Bool × State)
  | [], s => return (true, s)
  | path :: paths, s => do
    let first := runFile .standard path (← host.source path) s
    first.lines.forM host.print
    host.logAll options first.log
    let (clean, last) ← runFiles options paths first.state
    return (first.clean && clean, last)

/-- A whole run. Gives the exit code. -/
def run (args : List String) : m Nat := do
  match invocation args with
  | .help =>
    usage.forM host.complain
    return 0
  | .unknownOption flag =>
    (unknownOptionLines flag).forM host.complain
    return 2
  | .run options =>
    let (clean, last) ← host.runFiles options options.files .initial
    if options.repl then
      Repl.banner.forM host.print
      host.converse options last
      host.print Repl.farewell
    return if clean then 0 else 1

end Host

/-- What a run leaves behind. -/
structure Console where
  out : List String
  err : List String
  log : List LogMessage

/-- The system as a function: files that do not change, and inputs that are known
beforehand. -/
def Host.given (sources : String → Source) (inputs : List Input) : Host (StateM Console) where
  source path := return sources path
  print line := modify fun c => ⟨c.out ++ [line], c.err, c.log⟩
  complain line := modify fun c => ⟨c.out, c.err ++ [line], c.log⟩
  log message := modify fun c => ⟨c.out, c.err, c.log ++ [message]⟩
  converse options s :=
    let (lines, repl) := Repl.run .standard inputs ⟨[], s⟩
    let messages := (messagesSince s repl.state).filter (options.logs ·.level)
    modify fun c => ⟨c.out ++ lines, c.err, c.log ++ messages⟩

/-- What a run prints and logs, and how it ends. -/
structure Report where
  exit : Nat
  out : List String
  err : List String
  log : List LogMessage

/-- A whole run on given files and inputs. -/
def run (args : List String) (sources : String → Source) (inputs : List Input) : Report :=
  let (exit, console) := ((Host.given sources inputs).run args).run ⟨[], [], []⟩
  ⟨exit, console.out, console.err, console.log⟩

end CommandLine

end DynamicLisp
