import DynamicLisp.Reader
import Mathlib.Data.Nat.Digits.Defs

/-!
# The grammar of program text

The grammar says which texts are forms and what they denote, without saying how
they are read. Where an atom or a comment ends depends on the text after it, so
every phrase is described together with the text that follows: `Form d depth text
value rest` says that `text` is a form that denotes `value` where `rest` comes
next.
-/

namespace DynamicLisp.Grammar

/-- The characters that only separate. -/
def spaces : List Char := [' ', '\t', '\r', '\n']

/-- The characters at which an atom ends. -/
def delimiters (d : Dialect) : List Char :=
  spaces ++ ['(', ')'] ++ if d.comments then [';'] else []

/-- The number of forms inside one another is at most this. -/
def depthLimit : Nat := 100

/-- Spaces and comments. A comment goes on to the end of its line or of the text. -/
inductive Trivia (d : Dialect) : (text rest : List Char) → Prop where
  | nil {rest} : Trivia d [] rest
  | space {c text rest} (space : c ∈ spaces) (more : Trivia d text rest) : Trivia d (c :: text) rest
  | comment {line text rest} (enabled : d.comments = true) (unbroken : '\n' ∉ line)
      (ends : ∀ c ∈ (text ++ rest).head?, c = '\n') (more : Trivia d text rest) :
      Trivia d (';' :: line ++ text) rest

/-- A maximal run of characters that are no delimiters. -/
structure Token (d : Dialect) (text rest : List Char) : Prop where
  nonempty : text ≠ []
  unbroken : ∀ c ∈ text, c ∉ delimiters d
  unquoted : text.head? ≠ some Dialect.quoteMark
  maximal : ∀ c ∈ rest.head?, c ∈ delimiters d

/-- One or more decimal digits with their value. -/
structure Digits (text : List Char) (n : Nat) : Prop where
  nonempty : text ≠ []
  decimal : ∀ c ∈ text, '0' ≤ c ∧ c ≤ '9'
  value : n = Nat.ofDigits 10 (text.reverse.map fun c => c.toNat - '0'.toNat)

/-- Digits after at most one sign. -/
inductive Literal : List Char → Int → Prop where
  | unsigned {text n} (digits : Digits text n) : Literal text n
  | plus {text n} (digits : Digits text n) : Literal ('+' :: text) n
  | minus {text n} (digits : Digits text n) : Literal ('-' :: text) (-n)

/-- An atom denotes an integer if it is a literal in range, and a symbol otherwise. -/
inductive Denotes (text : List Char) : Value → Prop where
  | integer {n : Integer} (literal : Literal text n.toInt) : Denotes text (.int n)
  | symbol (others : ∀ n : Integer, ¬ Literal text n.toInt) :
      Denotes text (.symbol (String.ofList text))

mutual

/-- A form inside so many others. -/
inductive Form (d : Dialect) : Nat → List Char → Value → List Char → Prop where
  | atom {depth before text value rest} (shallow : depth < depthLimit)
      (skipped : Trivia d before (text ++ rest)) (token : Token d text rest)
      (denotes : Denotes text value) : Form d depth (before ++ text) value rest
  | list {depth before text values after rest} (shallow : depth < depthLimit)
      (skipped : Trivia d before ('(' :: text ++ after ++ ')' :: rest))
      (items : Forms d (depth + 1) text values (after ++ ')' :: rest))
      (trailing : Trivia d after (')' :: rest)) :
      Form d depth (before ++ '(' :: text ++ after ++ [')']) (.list values) rest
  | quote {depth before text value rest} (shallow : depth < depthLimit)
      (skipped : Trivia d before (Dialect.quoteMark :: text ++ rest))
      (quoted : Form d (depth + 1) text value rest) :
      Form d depth (before ++ Dialect.quoteMark :: text) (.list [.symbol "quote", value]) rest

/-- Forms one after the other. -/
inductive Forms (d : Dialect) : Nat → List Char → List Value → List Char → Prop where
  | nil {depth rest} : Forms d depth [] [] rest
  | cons {depth text value texts values rest} (first : Form d depth text value (texts ++ rest))
      (later : Forms d depth texts values rest) :
      Forms d depth (text ++ texts) (value :: values) rest

end

theorem Trivia.append {d : Dialect} {before text rest : List Char}
    (first : Trivia d before (text ++ rest)) (second : Trivia d text rest) :
    Trivia d (before ++ text) rest := by
  generalize whole : text ++ rest = following at first
  induction first with
  | nil => exact second
  | space space _ ih => exact .space space (ih whole)
  | comment enabled unbroken ends _ ih =>
      subst whole
      rw [List.append_assoc]
      exact .comment enabled unbroken (by rwa [List.append_assoc]) (ih rfl)

/-- Trivia before a form belong to it. -/
theorem Form.skip {d : Dialect} {depth : Nat} {before text rest : List Char} {value : Value}
    (skipped : Trivia d before (text ++ rest)) (form : Form d depth text value rest) :
    Form d depth (before ++ text) value rest := by
  cases form with
  | atom shallow inner token denotes =>
      rw [← List.append_assoc]
      rw [List.append_assoc] at skipped
      exact .atom shallow (skipped.append inner) token denotes
  | @list _ inner text values after _ shallow skipped' items trailing =>
      have both : Trivia d (before ++ inner) ('(' :: text ++ after ++ ')' :: rest) :=
        Trivia.append (by simpa using skipped) skipped'
      simpa using Form.list shallow both items trailing
  | @quote _ inner text value _ shallow skipped' quoted =>
      have both : Trivia d (before ++ inner) (Dialect.quoteMark :: text ++ rest) :=
        Trivia.append (by simpa using skipped) skipped'
      simpa using Form.quote shallow both quoted

theorem Form.nonempty {d : Dialect} {depth : Nat} {text rest : List Char} {value : Value}
    (form : Form d depth text value rest) : text ≠ [] := by
  cases form with
  | atom _ _ token _ => simp [token.nonempty]
  | list => simp
  | quote => simp

theorem Form.depth_lt {d : Dialect} {depth : Nat} {text rest : List Char} {value : Value}
    (form : Form d depth text value rest) : depth < depthLimit := by
  cases form <;> assumption

end DynamicLisp.Grammar
