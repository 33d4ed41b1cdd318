import DynamicLisp.Proofs.Store.Visible

/-!
# The way outward from a frame

A chain lists the frames that one meets by following the links outward. Its
definition looks at the links alone and knows nothing of places or depths. In a
well-formed store every frame has exactly one chain, which goes down in the store,
ends in a root and has one frame more than the depth says. Both outward walks of the
store go along the chain.
-/

namespace DynamicLisp.Store

variable {store : Store} {f : FrameId} {path : List FrameId}

/-- Following the links from `f` one meets the frames of the path, the last of which
is a root. -/
inductive Chain (store : Store) : FrameId → List FrameId → Prop where
  | root {f frame} (found : store.frame? f = some frame) (link : frame.outer = none) :
      Chain store f [f]
  | inner {f frame outer path} (found : store.frame? f = some frame)
      (link : frame.outer = some outer) (further : Chain store outer path) :
      Chain store f (f :: path)

/-- The bindings that a frame holds itself. -/
def own (store : Store) (f : FrameId) : Table Value :=
  ((store.frame? f).map Frame.bindings).getD .empty

theorem own_of_frame? {frame : Frame} (found : store.frame? f = some frame) :
    store.own f = frame.bindings := by
  simp [own, found]

/-- Every frame has a chain, since outer frames are earlier ones. -/
theorem WellFormed.exists_chain (formed : store.WellFormed) (present : f < store.size) :
    ∃ path, store.Chain f path := by
  induction f using Nat.strongRecOn with
  | ind f ih =>
      obtain ⟨frame, found⟩ := frame?_isSome present
      cases link : frame.outer with
      | none => exact ⟨_, .root found link⟩
      | some outer =>
          obtain ⟨earlier, _⟩ := (formed f frame found).inner outer link
          obtain ⟨path, further⟩ := ih outer earlier (Nat.lt_trans earlier present)
          exact ⟨_, .inner found link further⟩

namespace Chain

theorem unique {other : List FrameId} (chain : store.Chain f path)
    (chain' : store.Chain f other) : other = path := by
  induction chain generalizing other with
  | root found link =>
      cases chain' with
      | root => rfl
      | inner found' link' =>
          rw [found] at found'
          obtain rfl := Option.some.inj found'
          rw [link] at link'
          cases link'
  | inner found link _ ih =>
      cases chain' with
      | root found' link' =>
          rw [found] at found'
          obtain rfl := Option.some.inj found'
          rw [link] at link'
          cases link'
      | inner found' link' further' =>
          rw [found] at found'
          obtain rfl := Option.some.inj found'
          rw [link] at link'
          obtain rfl := Option.some.inj link'
          rw [ih further']

theorem ends (chain : store.Chain f path) :
    ∃ root frame, path.getLast? = some root ∧ store.frame? root = some frame ∧
      frame.outer = none := by
  induction chain with
  | root found link => exact ⟨_, _, rfl, found, link⟩
  | inner _ _ _ ih =>
      obtain ⟨root, frame, last, found, link⟩ := ih
      refine ⟨root, frame, ?_, found, link⟩
      rw [List.getLast?_cons, last]
      rfl

variable (formed : store.WellFormed)

include formed

theorem length_eq (chain : store.Chain f path) : path.length = store.depth f + 1 := by
  induction chain with
  | root found link =>
      rw [depth_eq_of_frame? found, (formed _ _ found).root link]
      rfl
  | inner found link _ ih =>
      rw [List.length_cons, ih, depth_eq_of_frame? found, ((formed _ _ found).inner _ link).2]

/-- The frame itself is the latest of its chain. -/
theorem le_of_mem (chain : store.Chain f path) : ∀ g ∈ path, g ≤ f := by
  induction chain with
  | root => simp
  | @inner f frame outer path found link further ih =>
      obtain ⟨earlier, _⟩ := (formed f frame found).inner outer link
      intro g member
      obtain rfl | member := List.mem_cons.mp member
      · exact Nat.le_refl _
      · exact Nat.le_trans (ih g member) (Nat.le_of_lt earlier)

theorem decreasing (chain : store.Chain f path) : path.Pairwise (· > ·) := by
  induction chain with
  | root => simp
  | @inner f frame outer path found link further ih =>
      obtain ⟨earlier, _⟩ := (formed f frame found).inner outer link
      refine List.pairwise_cons.mpr ⟨?_, ih⟩
      intro g member
      exact Nat.lt_of_le_of_lt (further.le_of_mem formed g member) earlier

/-- The owner of a name is the first frame of the chain that binds it. -/
theorem owner?_eq (chain : store.Chain f path) (name : String) :
    store.owner? f name = path.find? fun g => (store.own g).contains name := by
  induction chain with
  | @root f frame found link =>
      rw [owner?, found, List.find?_cons, own_of_frame? found]
      cases binds : frame.bindings.contains name with
      | true => simp [binds]
      | false => simp [binds, link]
  | @inner f frame outer path found link further ih =>
      obtain ⟨earlier, _⟩ := (formed f frame found).inner outer link
      rw [owner?, found, List.find?_cons, own_of_frame? found]
      cases binds : frame.bindings.contains name with
      | true => simp [binds]
      | false => simp [binds, link, earlier, ih]

/-- What is seen from a frame are the bindings of its chain, of which inner ones
hide outer ones. -/
theorem visible_eq (chain : store.Chain f path) :
    store.visible f = path.foldr (fun g outer => outer.override (store.own g)) .empty := by
  induction chain with
  | root found link =>
      rw [visible_root found link, List.foldr_cons, List.foldr_nil, own_of_frame? found,
        Table.override_empty]
  | @inner f frame outer path found link further ih =>
      obtain ⟨earlier, _⟩ := (formed f frame found).inner outer link
      rw [visible_inner found link earlier, List.foldr_cons, ← ih, own_of_frame? found]

end Chain

end DynamicLisp.Store
