import DynamicLisp.Session
import DynamicLisp.Text.Blank

/-!
# The interactive loop

The loop takes one line at a time. Lines are collected until no form is open;
the forms that a line completes are evaluated at once, and only the text of an
open form is kept. A line that starts a form may instead be blank or one of the
commands, which begin with a colon.

The loop is a function of what the line editor hands over, and what it prints is
part of its result.
-/

namespace DynamicLisp

/-- What a line means when no form is open. -/
inductive Command where
  | blank
  | help
  | listing
  | quit
  | source
  deriving DecidableEq

/-- Commands are recognised without regard to blanks around them. -/
def Command.ofLine (line : List Char) : Command :=
  match String.ofList (Text.trim line) with
  | "" => blank
  | ":help" => help
  | ":env" => listing
  | ":quit" => quit
  | ":exit" => quit
  | _ => source

/-- What the line editor hands over. -/
inductive Input where
  | line (text : List Char)
  /-- Ctrl-C was pressed. -/
  | interrupt
  /-- The editor cannot go on. -/
  | failure (reason : String)

/-- The interactive loop between two inputs. -/
structure Repl where
  /-- The text of the form that is open, or nothing. -/
  pending : List Char
  state : State

/-- What the loop does with an input. -/
structure Reply where
  lines : List String
  repl : Repl
  /-- Whether the loop ends here. -/
  ended : Bool

namespace Repl

/-- The frame in which everything typed is evaluated. -/
def frame : FrameId := 0

/-- The lines printed before the first line is read. -/
def banner : List String :=
  ["minilisp - a minimal Lisp",
    "Enter expressions like: (+ 1 2)",
    "Type :help for more commands, or Ctrl+D to exit.",
    ""]

/-- The line printed after the last line was read. -/
def farewell : String := "Goodbye!"

/-- The answer to `:help`. -/
def helpLines : List String :=
  ["Commands:",
    "  :help      - Show this help message",
    "  :env       - Show current environment bindings",
    "  :quit      - Exit the interpreter",
    "  Ctrl+D     - Exit the interpreter",
    "  Ctrl+C     - Abandon the current form (exit at an empty prompt)",
    "",
    "Special forms: (quote x) 'x (if c a b) (define name expr)",
    "               (define (name params...) body) (lambda (params...) body)",
    "Primitives:    + - * = < > <= >= car cdr cons",
    "Only #f is false: 0, nil and () are all true.",
    "",
    "Examples:",
    "  (define (add2 x) (+ x 2))",
    "  (add2 5)",
    "  (car '(1 2 3))",
    ""]

/-- A binding in the list of functions: the name with the parameters. -/
def functionLine? : String × Value → Option String
  | (name, .closure _ params _) => some ("  (" ++ " ".intercalate (name :: params) ++ ")")
  | _ => none

/-- A binding in the list of values. -/
def valueLine? : String × Value → Option String
  | (_, .closure ..) => none
  | (name, value) => some ("  " ++ name ++ " = " ++ value.text)

/-- A titled list with its length, or nothing if the list is empty. -/
def titled (title : String) (lines : List String) : List String :=
  if lines.isEmpty then [] else (title ++ " (" ++ lines.length.repr ++ "):") :: lines

/-- The bindings that can be seen, closures first. -/
def bindingLines (bindings : List (String × Value)) : List String :=
  if bindings.isEmpty then ["No user bindings."]
  else
    titled "Functions" (bindings.filterMap functionLine?) ++
      titled "Values" (bindings.filterMap valueLine?)

/-- The answer to `:env`: the names of the operators, then the bindings. -/
def listingLines (registry : Registry) (env : Environment) : List String :=
  ["Special forms: " ++ " ".intercalate registry.forms.names,
    "Primitives:    " ++ " ".intercalate registry.primitives.names,
    ""] ++ bindingLines env.bindings

/-- Adds a line to the open form and evaluates what is complete. A form that
cannot be read is reported and dropped with everything after it. -/
def feed (registry : Registry) (line : List Char) (repl : Repl) : Reply :=
  match registry.evalChunk frame (repl.pending ++ line ++ ['\n']) repl.state with
  | (outcomes, .done, s) => ⟨outcomes.map Outcome.report, ⟨[], s⟩, false⟩
  | (outcomes, .stopped rest error, s) =>
    if error.isIncomplete then ⟨outcomes.map Outcome.report, ⟨rest, s⟩, false⟩
    else ⟨outcomes.map Outcome.report ++ [Outcome.report (.error (.parse error))], ⟨[], s⟩, false⟩

/-- Takes one line. Inside an open form every line is program text. -/
def line (registry : Registry) (input : List Char) (repl : Repl) : Reply :=
  if repl.pending.isEmpty then
    match Command.ofLine input with
    | .blank => ⟨[], repl, false⟩
    | .help => ⟨helpLines, repl, false⟩
    | .listing => ⟨listingLines registry ⟨repl.state.store, frame⟩, repl, false⟩
    | .quit => ⟨[], repl, true⟩
    | .source => repl.feed registry input
  else repl.feed registry input

/-- Takes one input. An interrupt drops the open form, or ends the loop if there is
none. -/
def take (registry : Registry) : Input → Repl → Reply
  | .line text, repl => repl.line registry text
  | .interrupt, repl => ⟨[], ⟨[], repl.state⟩, repl.pending.isEmpty⟩
  | .failure reason, repl => ⟨["Error: " ++ reason], repl, true⟩

/-- Takes inputs until there are no more or one of them ends the loop. -/
def run (registry : Registry) : List Input → Repl → List String × Repl
  | [], repl => ([], repl)
  | input :: inputs, repl =>
    let reply := repl.take registry input
    if reply.ended then (reply.lines, reply.repl)
    else
      let (lines, repl) := reply.repl.run registry inputs
      (reply.lines ++ lines, repl)

end Repl

end DynamicLisp
