/-!
# Errors of the reader

A parse error has a kind, a message and, where text is left at the point of
failure, a snippet of that text. The snippet is one line: it is cut to forty
characters first, then line feeds are written as a backslash and the letter n,
and carriage returns are dropped.
-/

namespace DynamicLisp

/-- What went wrong while reading. -/
inductive ParseError.Kind where
  | invalidSyntax
  | incomplete
  | tooDeeplyNested
  | unexpectedClose
  deriving DecidableEq

/-- A failure to read a form. -/
structure ParseError where
  kind : ParseError.Kind
  message : String
  context : Option String
  deriving DecidableEq

namespace ParseError

/-- The number of characters that a snippet is cut to. -/
def snippetLength : Nat := 40

/-- How a snippet shows one character of the text. -/
def snippetChar (c : Char) : List Char :=
  if c = '\n' then ['\\', 'n'] else if c = '\r' then [] else [c]

/-- The first characters of the text at a point of failure, unless nothing of
it would be shown. -/
def snippet (rest : List Char) : Option String :=
  match (rest.take snippetLength).flatMap snippetChar with
  | [] => none
  | shown => some (String.ofList shown)

/-- The error at a point of failure, given the text that starts there. -/
def near (kind : Kind) (message : String) (rest : List Char) : ParseError :=
  ⟨kind, message, snippet rest⟩

/-- Whether more text could complete the form. -/
def isIncomplete (error : ParseError) : Bool :=
  error.kind = .incomplete

/-- The message, followed by the snippet where there is one. -/
def text (error : ParseError) : String :=
  match error.context with
  | none => error.message
  | some context => error.message ++ " near '" ++ context ++ "'"

end ParseError

end DynamicLisp
