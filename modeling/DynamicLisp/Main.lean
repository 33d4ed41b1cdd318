import DynamicLisp.CommandLine
import DynamicLisp.Text.Lines

/-!
# The program

The system as `CommandLine` asks for it: files, standard input and output. Log messages
go to where complaints go.
-/

namespace DynamicLisp.Program

open CommandLine

/-- Reads a file as the library wants it. -/
def source (path : String) : IO Source := do
  try
    return .ofBytes (← IO.FS.readBinFile path)
  catch
    | .noFileOrDirectory .. => return .error .missing
    | .inappropriateType .. => return .error .directory
    | error => return .error (.other (toString error))

/-- Prints a message of the log. -/
def log (message : LogMessage) : IO Unit :=
  IO.eprintln (message.level.text ++ " " ++ message.text)

/-- The next line of standard input. There is no line editor, so an interrupt ends the
program. -/
def input : IO (Option Input) := do
  try
    let read ← (← IO.getStdin).getLine
    return (Text.lines read.toList).head?.map .line
  catch error => return some (.failure (toString error))

/-- Takes inputs until the loop ends. How many there will be is not known, so this cannot
be `Repl.run`, but it takes each of them alike. -/
partial def converse (options : Options) (repl : Repl) : IO Unit := do
  match ← input with
  | none => return
  | some input =>
    let reply := repl.take .standard input
    reply.lines.forM (IO.println ·)
    let messages := messagesSince repl.state reply.repl.state
    (messages.filter (options.logs ·.level)).forM log
    unless reply.ended do
      -- The records have been logged, and a long conversation leaves many.
      converse options ⟨reply.repl.pending, reply.repl.state.drain.2⟩

/-- The system that the program runs on. -/
def host : Host IO where
  source := source
  print := IO.println
  complain := IO.eprintln
  log := log
  converse options s := converse options ⟨[], s⟩

end DynamicLisp.Program

/-- Entry point. -/
def main (args : List String) : IO UInt32 := do
  return UInt32.ofNat (← DynamicLisp.Program.host.run args)
