import DynamicLisp.Text.Hidden

/-!
# Quoted names

Listings of names put each name between double quotes. A quote or a backslash
inside a name gets a backslash before it, line breaks and tabs are written by
their letters and other hidden characters by their code; every other character
stands for itself.
-/

namespace DynamicLisp.Text

/-- A character of a quoted name. -/
def escape (c : Char) : List Char :=
  if c = '"' || c = '\\' then ['\\', c]
  else if c = '\t' then ['\\', 't']
  else if c = '\n' then ['\\', 'n']
  else if c = '\r' then ['\\', 'r']
  else if c.toNat = 0 then ['\\', '0']
  else if isHidden c then
    "\\u\x7b".toList ++ Nat.toDigits 16 c.toNat ++ "\x7d".toList
  else [c]

example : escape '\u0301' = "\\u\x7b301\x7d".toList := by decide

/-- A name between double quotes. -/
def quote (name : String) : String :=
  "\"" ++ String.ofList (name.toList.flatMap escape) ++ "\""

/-- Quoted names between square brackets, separated by commas. -/
def quoteAll (names : List String) : String :=
  "[" ++ ", ".intercalate (names.map quote) ++ "]"

end DynamicLisp.Text
