import DynamicLisp.Evaluator
import DynamicLisp.Reader

/-!
# Evaluating text

Text is evaluated form by form in one frame. A form that fails does not keep the
forms after it from being evaluated, and what it did before it failed stays.
-/

namespace DynamicLisp

/-- The result of evaluating a form. -/
abbrev Outcome := Except Error Value

/-- How an outcome is reported to a user. -/
def Outcome.report : Outcome → String
  | .ok value => "=> " ++ value.text
  | .error error => "Error: " ++ error.message

/-- Whether an outcome is a value. -/
def Outcome.isValue : Outcome → Bool
  | .ok _ => true
  | .error _ => false

namespace Registry

/-- Evaluates forms in a frame, one after the other, and gives all outcomes. -/
def evalForms (registry : Registry) (f : FrameId) : List Value → State → List Outcome × State
  | [], s => ([], s)
  | form :: forms, s =>
    let (outcome, s) := (registry.eval f form).outcome s
    let (outcomes, s) := registry.evalForms f forms s
    (outcome :: outcomes, s)

/-- Reads a text that holds exactly one form and evaluates it. -/
def evalText (registry : Registry) (d : Dialect) (f : FrameId) (text : List Char) : Eval Value := do
  registry.eval f (← Eval.ofExcept ((readOne d text).mapError .parse))

/-- Reads all forms of a text and then evaluates them. If one of them cannot be
read, none is evaluated. -/
def evalTexts (registry : Registry) (d : Dialect) (f : FrameId) (text : List Char) (s : State) :
    Except ParseError (List Outcome) × State :=
  match readAll d text with
  | .ok forms =>
    let (outcomes, s) := registry.evalForms f forms s
    (.ok outcomes, s)
  | .error error => (.error error, s)

/-- Evaluates the forms of a text up to its end or to the first one that cannot
be read. -/
def evalChunk (registry : Registry) (f : FrameId) (text : List Char) (s : State) :
    List Outcome × Ending × State :=
  let chunk := Chunk.read .commented text
  let (outcomes, s) := registry.evalForms f chunk.forms s
  (outcomes, chunk.ending, s)

end Registry

end DynamicLisp
