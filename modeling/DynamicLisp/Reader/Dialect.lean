/-!
# Characters of program text

A dialect says whether a semicolon starts a comment. Forms are separated by
trivia: spaces, tabs, carriage returns, line feeds and, where the dialect has
them, comments. A comment ends before the next line feed, or with the text.
-/

namespace DynamicLisp

/-- The choices that a text leaves open to its reader. -/
structure Dialect where
  /-- Whether a semicolon starts a comment. -/
  comments : Bool
  deriving DecidableEq

namespace Dialect

/-- Program text in which a semicolon is an ordinary character. -/
def plain : Dialect := ⟨false⟩

/-- Program text with comments, as in files and at the prompt. -/
def commented : Dialect := ⟨true⟩

/-- The characters that only separate. -/
def isSpace (c : Char) : Bool :=
  c == ' ' || c == '\t' || c == '\r' || c == '\n'

/-- Whether a character starts a comment. -/
def startsComment (d : Dialect) (c : Char) : Bool :=
  d.comments && c == ';'

/-- The characters at which an atom ends. -/
def isDelimiter (d : Dialect) (c : Char) : Bool :=
  isSpace c || c == '(' || c == ')' || d.startsComment c

/-- The character that quotes the form after it. -/
def quoteMark : Char := '\x27'

/-- The text after leading trivia; `inComment` tells whether it starts inside a
comment. -/
def skipFrom (d : Dialect) : (inComment : Bool) → List Char → List Char
  | _, [] => []
  | true, c :: rest => d.skipFrom (c != '\n') rest
  | false, c :: rest =>
    if isSpace c then d.skipFrom false rest
    else if d.startsComment c then d.skipFrom true rest
    else c :: rest

/-- The text after leading trivia. -/
def skip (d : Dialect) (text : List Char) : List Char :=
  d.skipFrom false text

end Dialect

end DynamicLisp
