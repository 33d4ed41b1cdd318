import DynamicLisp.Table
import DynamicLisp.Text.Quoted
import DynamicLisp.Value

/-!
# Frames

Bindings live in frames, and frames are chained: each has at most one outer
frame, in which names are looked up that it does not bind itself. A definition
writes the frame it is evaluated in and no other.

The store keeps every frame ever opened, in the order of opening. A frame is
named by its place, and its outer frame stands at an earlier place. The outward
walks below therefore go down in the store, which is why they end.
-/

namespace DynamicLisp

/-- The place of a frame in the store. -/
abbrev FrameId := Nat

/-- A frame: its own bindings, the frame outside it and the number of frames
outside it. -/
structure Frame where
  bindings : Table Value
  outer : Option FrameId
  depth : Nat

/-- All frames, the oldest first. -/
structure Store where
  frames : Array Frame

namespace Frame

/-- A frame without bindings and without an outer frame. -/
def root : Frame := ⟨.empty, none, 0⟩

/-- A frame as a diagnosis shows it: its depth and the names it binds itself. -/
def inspect (frame : Frame) : String :=
  "Environment \x7b depth: " ++ frame.depth.repr ++ ", bindings: " ++
    Text.quoteAll frame.bindings.names ++ " \x7d"

end Frame

namespace Store

/-- The store with one root frame, at place 0. -/
def initial : Store := ⟨#[Frame.root]⟩

/-- The number of frames. -/
def size (store : Store) : Nat := store.frames.size

/-- The frame at a place. -/
def frame? (store : Store) (f : FrameId) : Option Frame := store.frames[f]?

/-- The place of the frame outside a frame. -/
def outer? (store : Store) (f : FrameId) : Option FrameId :=
  (store.frame? f).bind Frame.outer

/-- The number of frames outside a frame. -/
def depth (store : Store) (f : FrameId) : Nat :=
  match store.frame? f with
  | some frame => frame.depth
  | none => 0

/-- The depth of a frame that is opened under `outer`, or as a root. -/
def depthUnder (store : Store) : Option FrameId → Nat
  | none => 0
  | some f => store.depth f + 1

/-- Adds a frame, whose place is the number of frames before it. -/
def push (store : Store) (frame : Frame) : Store :=
  ⟨store.frames.push frame⟩

/-- Binds a name in one frame, in place of the binding it had there. -/
def set (store : Store) (f : FrameId) (name : String) (value : Value) : Store :=
  ⟨store.frames.modify f fun frame =>
    ⟨frame.bindings.insert name value, frame.outer, frame.depth⟩⟩

/-- The innermost frame, from `f` outward, that binds a name itself. -/
def owner? (store : Store) (f : FrameId) (name : String) : Option FrameId :=
  match store.frame? f with
  | none => none
  | some frame =>
    if frame.bindings.contains name then some f
    else
      match frame.outer with
      | none => none
      | some outer => if outer < f then store.owner? outer name else none
termination_by f

/-- The value of a name as seen from a frame. -/
def get? (store : Store) (f : FrameId) (name : String) : Option Value :=
  (store.owner? f name).bind fun owner =>
    (store.frame? owner).bind fun frame => frame.bindings.find? name

/-- All bindings visible from a frame, where inner ones hide outer ones. -/
def visible (store : Store) (f : FrameId) : Table Value :=
  match store.frame? f with
  | none => .empty
  | some frame =>
    match frame.outer with
    | none => frame.bindings
    | some outer =>
      if outer < f then (store.visible outer).override frame.bindings else frame.bindings
termination_by f

end Store

/-- A frame seen together with everything outside it. -/
structure Environment where
  store : Store
  frame : FrameId

namespace Environment

/-- The number of frames outside. -/
def depth (env : Environment) : Nat := env.store.depth env.frame

/-- The value of a name. -/
def get? (env : Environment) (name : String) : Option Value :=
  env.store.get? env.frame name

/-- The bindings that can be seen, in increasing order of names. -/
def bindings (env : Environment) : List (String × Value) :=
  (env.store.visible env.frame).toList

end Environment

end DynamicLisp
