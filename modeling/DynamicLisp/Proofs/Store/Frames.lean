import DynamicLisp.State

/-!
# Frames and what may be done to them

A store is well formed when every frame tells the truth about its place: a root
has depth 0, any other frame has its outer frame at an earlier place and is one
deeper, and no depth reaches `maxDepth`.

`Store.Grows` relates two stores when the second came from the first by opening
frames in their places and by writing bindings of any frames. Whatever a program
does to a store stays inside this relation, which keeps stores well formed.

`Store.WritesOnly f` allows to write bindings of frame `f` alone. Evaluation in `f`
with primitives that leave frames alone stays inside it; that is why a call cannot
disturb its caller.
-/

namespace DynamicLisp

namespace Store

variable {store before middle after : Store} {f g : FrameId} {frame : Frame}

theorem frame?_isSome (present : f < store.size) : ∃ frame, store.frame? f = some frame :=
  ⟨store.frames[f], Array.getElem?_eq_getElem present⟩

theorem lt_size_of_frame? (found : store.frame? f = some frame) : f < store.size :=
  (Array.getElem?_eq_some_iff.mp found).1

theorem depth_eq_of_frame? (found : store.frame? f = some frame) :
    store.depth f = frame.depth := by
  simp [depth, found]

@[simp] theorem size_push (store : Store) (frame : Frame) :
    (store.push frame).size = store.size + 1 :=
  Array.size_push frame

@[simp] theorem size_set (store : Store) (f : FrameId) (name : String) (value : Value) :
    (store.set f name value).size = store.size :=
  Array.size_modify

theorem frame?_push_old (present : f < store.size) (frame : Frame) :
    (store.push frame).frame? f = store.frame? f := by
  have distinct : f ≠ store.frames.size := Nat.ne_of_lt present
  simp [frame?, push, Array.getElem?_push, distinct]

@[simp] theorem frame?_push_new (store : Store) (frame : Frame) :
    (store.push frame).frame? store.size = some frame := by
  simp [frame?, push, size]

theorem frame?_set_other (distinct : g ≠ f) (name : String) (value : Value) :
    (store.set f name value).frame? g = store.frame? g := by
  simp [frame?, set, Array.getElem?_modify, Ne.symm distinct]

theorem frame?_set_self (found : store.frame? f = some frame) (name : String) (value : Value) :
    (store.set f name value).frame? f =
      some ⟨frame.bindings.insert name value, frame.outer, frame.depth⟩ := by
  have present : store.frames[f]? = some frame := found
  simp [frame?, set, Array.getElem?_modify, present]

theorem depth_push_old (present : f < store.size) (frame : Frame) :
    (store.push frame).depth f = store.depth f := by
  simp only [depth, frame?_push_old present]

@[simp] theorem depth_push_new (store : Store) (frame : Frame) :
    (store.push frame).depth store.size = frame.depth := by
  simp [depth]

/-- The second store came from the first by opening frames and by binding names
in frame `f`. Every other frame is as it was, and `f` keeps its place. -/
structure WritesOnly (f : FrameId) (before after : Store) : Prop where
  size_le : before.size ≤ after.size
  other : ∀ g, g < before.size → g ≠ f → after.frame? g = before.frame? g
  own : ∀ frame, before.frame? f = some frame →
    ∃ bindings, after.frame? f = some ⟨bindings, frame.outer, frame.depth⟩

namespace WritesOnly

theorem refl (f : FrameId) (store : Store) : WritesOnly f store store :=
  ⟨Nat.le_refl _, fun _ _ _ => rfl, fun frame found => ⟨frame.bindings, found⟩⟩

theorem trans (first : WritesOnly f before middle) (second : WritesOnly f middle after) :
    WritesOnly f before after := by
  refine ⟨Nat.le_trans first.size_le second.size_le, ?_, ?_⟩
  · intro g present distinct
    have later := second.other g (Nat.lt_of_lt_of_le present first.size_le) distinct
    rw [later, first.other g present distinct]
  · intro frame found
    obtain ⟨bindings, kept⟩ := first.own frame found
    obtain ⟨later, found⟩ := second.own _ kept
    exact ⟨later, found⟩

theorem set (f : FrameId) (store : Store) (name : String) (value : Value) :
    WritesOnly f store (store.set f name value) := by
  refine ⟨by simp, ?_, ?_⟩
  · intro g _ distinct
    exact frame?_set_other distinct name value
  · intro own found
    exact ⟨_, frame?_set_self found name value⟩

/-- What is written in a frame that was opened for the purpose does not touch
any frame that was there before. -/
theorem of_inner (f : FrameId) (inner : WritesOnly before.size (before.push frame) after) :
    WritesOnly f before after := by
  have old : ∀ g, g < before.size → after.frame? g = before.frame? g := by
    intro g present
    have kept := inner.other g (by simp; omega) (Nat.ne_of_lt present)
    rw [kept, frame?_push_old present]
  refine ⟨?_, fun g present _ => old g present, ?_⟩
  · have grown := inner.size_le
    rw [size_push] at grown
    omega
  · intro own found
    exact ⟨own.bindings, by rw [old f (lt_size_of_frame? found), found]⟩

/-- Every frame keeps its outer frame and its depth. -/
theorem place (writes : WritesOnly f before after) (found : before.frame? g = some frame) :
    ∃ bindings, after.frame? g = some ⟨bindings, frame.outer, frame.depth⟩ := by
  by_cases same : g = f
  · subst same
    exact writes.own frame found
  · exact ⟨frame.bindings, by rw [writes.other g (lt_size_of_frame? found) same, found]⟩

theorem depth_eq (writes : WritesOnly f before after) (present : g < before.size) :
    after.depth g = before.depth g := by
  obtain ⟨frame, found⟩ := frame?_isSome present
  obtain ⟨bindings, kept⟩ := writes.place found
  rw [depth_eq_of_frame? found, depth_eq_of_frame? kept]

theorem lt_size (writes : WritesOnly f before after) (present : g < before.size) :
    g < after.size :=
  Nat.lt_of_lt_of_le present writes.size_le

end WritesOnly

end Store

/-- What a frame at place `f` says of itself is true: it is a root of depth 0 or
one deeper than an earlier frame, and not too deep. -/
structure Frame.Placed (store : Store) (f : FrameId) (frame : Frame) : Prop where
  shallow : frame.depth < maxDepth
  root : frame.outer = none → frame.depth = 0
  inner : ∀ outer, frame.outer = some outer → outer < f ∧ frame.depth = store.depth outer + 1

namespace Store

variable {store before middle after : Store} {f g : FrameId} {frame : Frame}

/-- Every frame of the store is placed as it says. -/
def WellFormed (store : Store) : Prop :=
  ∀ f frame, store.frame? f = some frame → frame.Placed store f

theorem WellFormed.depth_lt (formed : store.WellFormed) (present : f < store.size) :
    store.depth f < maxDepth := by
  obtain ⟨frame, found⟩ := frame?_isSome present
  rw [depth_eq_of_frame? found]
  exact (formed f frame found).shallow

theorem wellFormed_empty : WellFormed ⟨#[]⟩ := by
  intro f frame found
  simp [frame?] at found

/-- The second store came from the first by opening frames and by binding names. The
frames of the first keep their outer frames and their depths, and the others are
placed as they say. -/
structure Grows (before after : Store) : Prop where
  kept : ∀ g frame, before.frame? g = some frame →
    ∃ bindings, after.frame? g = some ⟨bindings, frame.outer, frame.depth⟩
  opened : ∀ g frame, before.size ≤ g → after.frame? g = some frame → frame.Placed after g

namespace Grows

theorem lt_size (grows : Grows before after) (present : g < before.size) : g < after.size := by
  obtain ⟨frame, found⟩ := frame?_isSome present
  obtain ⟨bindings, kept⟩ := grows.kept g frame found
  exact lt_size_of_frame? kept

theorem size_le (grows : Grows before after) : before.size ≤ after.size := by
  apply Nat.le_of_not_lt
  intro smaller
  exact Nat.lt_irrefl _ (grows.lt_size smaller)

theorem depth_eq (grows : Grows before after) (present : g < before.size) :
    after.depth g = before.depth g := by
  obtain ⟨frame, found⟩ := frame?_isSome present
  obtain ⟨bindings, kept⟩ := grows.kept g frame found
  rw [depth_eq_of_frame? found, depth_eq_of_frame? kept]

/-- A frame that was placed as it says still is: it says the same, and the frame
outside it has the same depth. -/
theorem placed (grows : Grows before after) (present : g < before.size)
    (placed : ∀ own, before.frame? g = some own → own.Placed before g)
    (found : after.frame? g = some frame) : frame.Placed after g := by
  obtain ⟨own, same⟩ := frame?_isSome present
  obtain ⟨bindings, kept⟩ := grows.kept g own same
  obtain rfl : frame = ⟨bindings, own.outer, own.depth⟩ := by
    rw [found] at kept
    exact Option.some.inj kept
  have place := placed own same
  refine ⟨place.shallow, place.root, fun outer link => ?_⟩
  obtain ⟨earlier, deeper⟩ := place.inner outer link
  rw [grows.depth_eq (Nat.lt_trans earlier present)]
  exact ⟨earlier, deeper⟩

theorem wellFormed (grows : Grows before after) (formed : before.WellFormed) :
    after.WellFormed := by
  intro g frame found
  by_cases old : g < before.size
  · exact grows.placed old (formed g) found
  · exact grows.opened g frame (Nat.not_lt.mp old) found

theorem refl (store : Store) : Grows store store := by
  refine ⟨fun _ frame found => ⟨frame.bindings, found⟩, fun g frame new found => ?_⟩
  exact absurd (lt_size_of_frame? found) (Nat.not_lt.mpr new)

theorem trans (first : Grows before middle) (second : Grows middle after) :
    Grows before after := by
  refine ⟨fun g frame found => ?_, fun g frame new found => ?_⟩
  · obtain ⟨bindings, kept⟩ := first.kept g frame found
    obtain ⟨later, found⟩ := second.kept g _ kept
    exact ⟨later, found⟩
  · by_cases old : g < middle.size
    · exact second.placed old (fun own => first.opened g own new) found
    · exact second.opened g frame (Nat.not_lt.mp old) found

theorem set (f : FrameId) (store : Store) (name : String) (value : Value) :
    Grows store (store.set f name value) := by
  refine ⟨fun g frame => (WritesOnly.set f store name value).place, fun g frame new found => ?_⟩
  have present := lt_size_of_frame? found
  rw [size_set] at present
  exact absurd present (Nat.not_lt.mpr new)

theorem push (placed : frame.Placed store store.size) : Grows store (store.push frame) := by
  refine ⟨fun g own found => ?_, fun g own new found => ?_⟩
  · exact ⟨own.bindings, by rw [frame?_push_old (lt_size_of_frame? found), found]⟩
  · have last := lt_size_of_frame? found
    rw [size_push] at last
    obtain rfl : g = store.size := Nat.le_antisymm (Nat.lt_succ_iff.mp last) new
    rw [frame?_push_new] at found
    obtain rfl := Option.some.inj found
    refine ⟨placed.shallow, placed.root, fun outer link => ?_⟩
    obtain ⟨earlier, deeper⟩ := placed.inner outer link
    rw [depth_push_old earlier]
    exact ⟨earlier, deeper⟩

end Grows

theorem WellFormed.push (formed : store.WellFormed) (placed : frame.Placed store store.size) :
    (store.push frame).WellFormed :=
  (Grows.push placed).wellFormed formed

/-- A frame under an existing one is placed well as long as it is not too deep. -/
theorem placed_under (present : f < store.size) (shallow : store.depth f + 1 < maxDepth)
    (bindings : Table Value) :
    Frame.Placed store store.size ⟨bindings, some f, store.depth f + 1⟩ := by
  refine ⟨shallow, by simp, ?_⟩
  intro outer link
  obtain rfl := Option.some.inj link
  exact ⟨present, rfl⟩

theorem placed_root (store : Store) (bindings : Table Value) :
    Frame.Placed store store.size ⟨bindings, none, 0⟩ :=
  ⟨show 0 < maxDepth by decide, fun _ => rfl, by simp⟩

end Store

end DynamicLisp
