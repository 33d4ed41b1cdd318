import DynamicLisp.Reader.Atom
import DynamicLisp.Reader.Dialect

/-!
# Reading one character

The reader goes through a text character by character. What it has seen so far
is summed up in a mode, which tells whether it stands between tokens, inside a
comment or inside an atom, and in the contexts that are still open: lists whose
closing parenthesis has not come, and quote marks whose form has not come. The
innermost context is first.

`step` is the whole control of the reader and has no recursion of its own.
Reading a text is folding it over the characters, so what the reader makes of a
text is determined by what it makes of its parts.

At most `maxNesting` contexts may be open. A list that fills the last place may
still be closed, but holds no form; a quote mark that fills it fails at once,
before any trivia that follows it.
-/

namespace DynamicLisp.Reader

/-- The number of contexts that may be open at once. -/
def maxNesting : Nat := 100

/-- A form that has begun and waits for what belongs to it. -/
inductive Context where
  /-- A list with its items so far, the latest first. -/
  | list (items : List Value)
  /-- A quote mark that waits for its form. -/
  | quote

/-- Where the reader stands between two characters. -/
inductive Mode where
  | between
  | comment
  /-- Inside an atom, with its characters so far, the latest first. -/
  | atom (chars : List Char)

/-- Why a text cannot be read. -/
inductive Cause where
  | tooDeep
  | endOfText
  | strayClose
  deriving DecidableEq

/-- What becomes of a value that has been read. -/
inductive Delivery where
  /-- No context was waiting: the value is the form. -/
  | complete (value : Value)
  /-- The value went into a context that is still open. -/
  | pending (stack : List Context)

/-- Hands a value to the innermost context. A quote mark turns it into a quoted
form and is done, a list takes it as an item and stays open. -/
def deliver (value : Value) : List Context → Delivery
  | [] => .complete value
  | .list items :: outer => .pending (.list (value :: items) :: outer)
  | .quote :: outer => deliver value.quoted outer

/-- The effect of one character. -/
inductive Step where
  /-- Reading goes on after the character. -/
  | more (mode : Mode) (stack : List Context)
  /-- The character completes the form. -/
  | closed (value : Value)
  /-- The form was complete before the character. -/
  | ended (value : Value)
  /-- Reading fails at the character. -/
  | failed (cause : Cause)
  /-- Reading fails right after the character. -/
  | failedAfter (cause : Cause)

/-- A character between tokens. -/
def stepBetween (d : Dialect) (stack : List Context) (c : Char) : Step :=
  if Dialect.isSpace c then .more .between stack
  else if d.startsComment c then .more .comment stack
  else if c == ')' then
    match stack with
    | .list items :: outer =>
      match deliver (.list items.reverse) outer with
      | .complete value => .closed value
      | .pending stack => .more .between stack
    | _ => .failed .strayClose
  else if maxNesting ≤ stack.length then .failed .tooDeep
  else if c == '(' then .more .between (.list [] :: stack)
  else if c == Dialect.quoteMark then
    if maxNesting ≤ stack.length + 1 then .failedAfter .tooDeep
    else .more .between (.quote :: stack)
  else .more (.atom [c]) stack

/-- Any character. An atom ends at a delimiter, which is then read as a
character between tokens. -/
def step (d : Dialect) : Mode → List Context → Char → Step
  | .between, stack, c => stepBetween d stack c
  | .comment, stack, c => .more (if c == '\n' then .between else .comment) stack
  | .atom chars, stack, c =>
    if d.isDelimiter c then
      match deliver (Atom.value chars.reverse) stack with
      | .complete value => .ended value
      | .pending stack => stepBetween d stack c
    else .more (.atom (c :: chars)) stack

end DynamicLisp.Reader
