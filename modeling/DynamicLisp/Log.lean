/-!
# Log records

Evaluation leaves a record of every definition, of every call for which a frame
was opened, and of the frame that it refused to open when a chain became too
long. Records are data; `Record.text` gives their wording.
-/

namespace DynamicLisp

/-- How much a record matters. -/
inductive Level where
  | trace
  | debug
  | warn
  deriving DecidableEq

/-- The name of a level. -/
def Level.text : Level → String
  | trace => "TRACE"
  | debug => "DEBUG"
  | warn => "WARN"

/-- An event of an evaluation, with the depth of the frame where it happened. -/
inductive Record where
  /-- A name was bound to a value. -/
  | define (name : String) (depth : Nat)
  /-- A name was bound to a new function. -/
  | defineFunction (name : String) (depth : Nat)
  /-- A frame was opened for a call; a closure called by itself has no name. -/
  | call (name : Option String) (arguments : Nat) (depth : Nat)
  /-- A frame would have been too deep. -/
  | refused (depth : Nat)
  deriving DecidableEq

namespace Record

/-- The level of a record. -/
def level : Record → Level
  | define .. => .debug
  | defineFunction .. => .debug
  | call .. => .trace
  | refused _ => .warn

/-- The wording of a record. -/
def message : Record → String
  | define name depth => "define " ++ name ++ " at depth " ++ depth.repr
  | defineFunction name depth => "define function " ++ name ++ " at depth " ++ depth.repr
  | call name arguments depth =>
    "call " ++ name.getD "#<closure>" ++ " with " ++ arguments.repr ++
      " argument(s) at depth " ++ depth.repr
  | refused depth => "refusing to open frame at depth " ++ depth.repr

/-- The level and the wording of a record. -/
def text (record : Record) : String :=
  record.level.text ++ " " ++ record.message

end Record

/-- What a logger is handed. -/
structure LogMessage where
  level : Level
  text : String

/-- A record in words. -/
def LogMessage.ofRecord (record : Record) : LogMessage :=
  ⟨record.level, record.message⟩

end DynamicLisp
