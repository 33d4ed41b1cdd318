/-!
# Lines

Interactive input is cut into lines. A line ends with a line feed, and one
carriage return before the line feed belongs to the ending. What follows the
last line feed is a line too, unless it is empty.
-/

namespace DynamicLisp.Text

/-- A line from its characters before the line feed, the latest first. -/
def lineOf : List Char → List Char
  | '\r' :: chars => chars.reverse
  | chars => chars.reverse

/-- The lines of a text, given the characters of the first line so far, the
latest first. -/
def linesFrom (chars : List Char) : List Char → List (List Char)
  | [] => if chars.isEmpty then [] else [chars.reverse]
  | c :: rest =>
    if c == '\n' then lineOf chars :: linesFrom [] rest else linesFrom (c :: chars) rest

/-- The lines of a text. -/
def lines (text : List Char) : List (List Char) :=
  linesFrom [] text

/-- The text of output lines, each ended by a line feed. -/
def unlines (lines : List String) : String :=
  String.join (lines.map (· ++ "\n"))

end DynamicLisp.Text
