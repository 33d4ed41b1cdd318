import DynamicLisp.Error
import DynamicLisp.Log
import DynamicLisp.Store

/-!
# The state of an interpreter

Evaluation reads and changes three things: the store of frames, the supply of
closure identities and the log. `Eval` is the type of actions on them. An action
that fails keeps what it did before it failed, so a definition made inside a
failing form stays.

Every change of the state goes through one of the actions below, and each of
them changes one of its parts.
-/

namespace DynamicLisp

/-- Everything that evaluation may change. -/
structure State where
  store : Store
  /-- The identity of the next closure. -/
  supply : ClosureId
  /-- The records so far, the oldest first. -/
  log : Array Record

namespace State

/-- One root frame, no closures and no records. -/
def initial : State := ⟨.initial, 0, #[]⟩

/-- Adds a record to the log. -/
def record (s : State) (event : Record) : State :=
  ⟨s.store, s.supply, s.log.push event⟩

/-- Binds a name in a frame. -/
def set (s : State) (f : FrameId) (name : String) (value : Value) : State :=
  ⟨s.store.set f name value, s.supply, s.log⟩

/-- Adds a frame to the store. -/
def push (s : State) (frame : Frame) : State :=
  ⟨s.store.push frame, s.supply, s.log⟩

/-- Uses up one closure identity. -/
def nextClosure (s : State) : State :=
  ⟨s.store, s.supply + 1, s.log⟩

/-- Takes the records out of the log. -/
def drain (s : State) : Array Record × State :=
  (s.log, ⟨s.store, s.supply, #[]⟩)

end State

/-- An action on the state, which gives a result or fails. In both cases there
is a state afterwards. -/
abbrev Eval := EStateM Error State

namespace Eval

/-- A result that was computed without looking at the state. -/
def ofExcept {α : Type} (result : Except Error α) : Eval α := fun s =>
  match result with
  | .ok a => .ok a s
  | .error error => .error error s

/-- Rewords the error of an action that fails. -/
def mapError {α : Type} (f : Error → Error) (action : Eval α) : Eval α := fun s =>
  match action s with
  | .ok a s => .ok a s
  | .error error s => .error (f error) s

/-- Runs an action and gives its outcome beside the state it leaves. -/
def outcome {α : Type} (action : Eval α) (s : State) : Except Error α × State :=
  match action s with
  | .ok a s => (.ok a, s)
  | .error error s => (.error error, s)

/-- Leaves a record in the log. -/
def record (event : Record) : Eval Unit := fun s =>
  .ok () (s.record event)

/-- The depth of a frame. -/
def depth (f : FrameId) : Eval Nat := fun s =>
  .ok (s.store.depth f) s

/-- The value of a name as seen from a frame. -/
def lookup (f : FrameId) (name : String) : Eval Value := fun s =>
  match s.store.get? f name with
  | some value => .ok value s
  | none => .error (.unbound name) s

/-- Binds a name in a frame. -/
def assign (f : FrameId) (name : String) (value : Value) : Eval Unit := fun s =>
  .ok () (s.set f name value)

/-- Makes a closure with an identity that no closure had before. -/
def newClosure (params : List String) (body : Value) : Eval Value := fun s =>
  .ok (.closure s.supply params body) s.nextClosure

/-- Adds a root frame. -/
def newRoot : Eval FrameId := fun s =>
  .ok s.store.size (s.push .root)

/-- Opens a frame that binds each parameter to the argument at its position,
under `outer` or as a root. Of parameters with one name the last one counts.

The number of arguments is checked before the depth, and a frame that would be
too deep leaves a record. In both cases no frame is opened. -/
def openFrame (params : List String) (args : List Value) (outer : Option FrameId) :
    Eval FrameId := fun s =>
  if params.length = args.length then
    let depth := s.store.depthUnder outer
    if depth < maxDepth then
      .ok s.store.size (s.push ⟨.ofList (params.zip args), outer, depth⟩)
    else .error (.stackLimit depth) (s.record (.refused depth))
  else .error (.arity (.exact params.length) args.length none) s

/-- Opens a number of empty frames, each inside the one before. The result is
the innermost frame that could be opened and the error that stopped the rest. -/
def nest : Nat → FrameId → Eval (FrameId × Option Error)
  | 0, f => pure (f, none)
  | count + 1, f => fun s =>
    match openFrame [] [] (some f) s with
    | .ok inner s => nest count inner s
    | .error error s => .ok (f, some error) s

end Eval

end DynamicLisp
