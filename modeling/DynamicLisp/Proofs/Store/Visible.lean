import DynamicLisp.Proofs.Store.Frames
import DynamicLisp.Proofs.Table

/-!
# What can be seen from a frame

`Store.get?` walks outward to the frame that owns a name, while `Store.visible`
collects all bindings at once. Both give the same answers. The walks only go down
in the store, so what is seen from a frame depends on the frames up to its place
and on nothing that was opened later.
-/

namespace DynamicLisp.Store

variable {store before after : Store} {f outer : FrameId} {frame : Frame}

/-- A lookup asks the frame itself first and then the frame outside it. -/
theorem get?_of_frame? (found : store.frame? f = some frame) (name : String) :
    store.get? f name = (frame.bindings.find? name).or
      (frame.outer.bind fun outer => if outer < f then store.get? outer name else none) := by
  rw [get?, owner?, found]
  cases own : frame.bindings.find? name with
  | some value => simp [Table.contains, own, found]
  | none =>
      cases link : frame.outer with
      | none => simp [Table.contains, own, link]
      | some outer =>
          by_cases earlier : outer < f
          · simp [Table.contains, own, link, earlier, get?]
          · simp [Table.contains, own, link, earlier]

theorem get?_of_frame?_none (missing : store.frame? f = none) (name : String) :
    store.get? f name = none := by
  rw [get?, owner?, missing]
  rfl

theorem visible_root (found : store.frame? f = some frame) (link : frame.outer = none) :
    store.visible f = frame.bindings := by
  rw [visible, found]
  simp [link]

theorem visible_inner (found : store.frame? f = some frame) (link : frame.outer = some outer)
    (earlier : outer < f) :
    store.visible f = (store.visible outer).override frame.bindings := by
  rw [visible, found]
  simp [link, earlier]

/-- The collected bindings answer as the walk does. -/
theorem find?_visible (store : Store) (f : FrameId) (name : String) :
    (store.visible f).find? name = store.get? f name := by
  induction f using Nat.strongRecOn with
  | ind f ih =>
      cases found : store.frame? f with
      | none =>
          rw [get?_of_frame?_none found, visible, found]
          rfl
      | some frame =>
          rw [get?_of_frame? found, visible, found]
          cases link : frame.outer with
          | none => simp [link]
          | some outer =>
              by_cases earlier : outer < f
              · simp [link, earlier, Table.find?_override, ih outer earlier]
              · simp [link, earlier]

/-- What is seen from a frame depends on the frames up to its place only. -/
theorem visible_congr (same : ∀ g, g ≤ f → after.frame? g = before.frame? g) :
    after.visible f = before.visible f := by
  induction f using Nat.strongRecOn with
  | ind f ih =>
      rw [visible, visible, same f (Nat.le_refl f)]
      cases found : before.frame? f with
      | none => rfl
      | some frame =>
          cases link : frame.outer with
          | none => simp [link]
          | some outer =>
              by_cases earlier : outer < f
              · have older := ih outer earlier fun g bound =>
                  same g (Nat.le_trans bound (Nat.le_of_lt earlier))
                simp [link, earlier, older]
              · simp [link, earlier]

/-- A name bound in a frame is a name bound in all that is seen from it. -/
theorem visible_set_self (present : f < store.size) (name : String) (value : Value) :
    (store.set f name value).visible f = (store.visible f).insert name value := by
  obtain ⟨frame, found⟩ := frame?_isSome present
  have written := frame?_set_self found name value
  cases link : frame.outer with
  | none => rw [visible_root written link, visible_root found link]
  | some outer =>
      by_cases earlier : outer < f
      · have older : (store.set f name value).visible outer = store.visible outer := by
          apply visible_congr
          intro g bound
          exact frame?_set_other (Nat.ne_of_lt (Nat.lt_of_le_of_lt bound earlier)) name value
        rw [visible_inner written link earlier, visible_inner found link earlier, older,
          Table.override_insert]
      · rw [visible, written, visible, found]
        simp [link, earlier]

theorem get?_set_self (present : f < store.size) (name : String)
    (value : Value) : (store.set f name value).get? f name = some value := by
  rw [← find?_visible, visible_set_self present, Table.find?_insert, if_pos rfl]

/-- From a new frame one sees what its outer frame shows, hidden by its own
bindings. -/
theorem visible_push_new (present : f < store.size) (bindings : Table Value) (depth : Nat) :
    (store.push ⟨bindings, some f, depth⟩).visible store.size =
      (store.visible f).override bindings := by
  have older : (store.push ⟨bindings, some f, depth⟩).visible f = store.visible f := by
    apply visible_congr
    intro g bound
    exact frame?_push_old (Nat.lt_of_le_of_lt bound present) _
  rw [visible_inner (frame?_push_new store _) rfl present, older]

/-- What happens in a frame opened for the purpose is not seen from the frames
that were there before. -/
theorem WritesOnly.visible_of_inner
    (inner : WritesOnly before.size (before.push frame) after) (present : f < before.size) :
    after.visible f = before.visible f := by
  apply visible_congr
  intro g bound
  have old : g < before.size := Nat.lt_of_le_of_lt bound present
  exact (inner.of_inner before.size).other g old (Nat.ne_of_lt old)

end DynamicLisp.Store
