import DynamicLisp.Proofs.Evaluation.Reachable
import DynamicLisp.Proofs.Store.Chains

/-!
# What a lookup finds

The innermost frame of a chain that binds a name owns it there. A binding that is
written in one frame is therefore seen from exactly those frames whose chains reach
the frame before any other that binds the name, and all other lookups, of other names
and from other places in the tree of frames, give what they gave before.

A new frame shows the argument of the last parameter with a name and, for all other
names, what its outer frame shows.
-/

namespace DynamicLisp

namespace Store

variable {store : Store} {f g : FrameId} {path : List FrameId} {name : String}

/-- A frame binds a name itself. -/
def Binds (store : Store) (f : FrameId) (name : String) : Prop :=
  (store.own f).contains name = true

instance : Decidable (store.Binds f name) :=
  inferInstanceAs (Decidable (_ = true))

/-- From the start of the path one sees what frame `f` binds the name to: the frame is
on the path, and no frame of the path strictly inside it binds the name. -/
def Exposes (store : Store) (path : List FrameId) (name : String) (f : FrameId) : Prop :=
  f ∈ path ∧ ∀ g ∈ path.takeWhile (· != f), ¬ store.Binds g name

instance : Decidable (store.Exposes path name f) :=
  inferInstanceAs (Decidable (_ ∧ _))

theorem exposes_cons :
    store.Exposes (g :: path) name f ↔
      f = g ∨ ¬ store.Binds g name ∧ store.Exposes path name f := by
  by_cases same : f = g
  · simp [Exposes, same]
  · simp [Exposes, same, Ne.symm same, and_left_comm]

theorem binds_iff_of_frame? {frame : Frame} (found : store.frame? f = some frame) :
    store.Binds f name ↔ (frame.bindings.find? name).isSome = true := by
  rw [Binds, own_of_frame? found, Table.contains]

/-- The value of a name is the one that its owner binds it to. -/
theorem get?_eq_owner? (store : Store) (f : FrameId) (name : String) :
    store.get? f name = (store.owner? f name).bind fun owner => (store.own owner).find? name := by
  rw [get?]
  congr 1
  funext owner
  rw [own]
  cases store.frame? owner <;> rfl

namespace Chain

/-- The owner of a name is the innermost frame of the chain that binds it. -/
theorem owner?_eq_some_iff (chain : store.Chain f path) (formed : store.WellFormed) :
    store.owner? f name = some g ↔ store.Exposes path name g ∧ store.Binds g name := by
  rw [chain.owner?_eq formed]
  clear chain
  induction path with
  | nil => simp [Exposes]
  | cons first path ih =>
      rw [List.find?_cons, exposes_cons]
      by_cases binds : store.Binds first name
      · have owns : (store.own first).contains name = true := binds
        simp only [owns, binds, not_true, false_and, or_false, Option.some.injEq]
        constructor
        · rintro rfl
          exact ⟨rfl, binds⟩
        · rintro ⟨rfl, _⟩
          rfl
      · have owns : (store.own first).contains name = false := Bool.eq_false_iff.mpr binds
        simp only [owns, binds, not_false_iff, true_and, ih]
        constructor
        · rintro ⟨exposed, bound⟩
          exact ⟨.inr exposed, bound⟩
        · rintro ⟨rfl | exposed, bound⟩
          · exact absurd bound binds
          · exact ⟨exposed, bound⟩

/-- What a name stands for is what its owner binds it to. -/
theorem exists_of_owner? (chain : store.Chain f path) (formed : store.WellFormed)
    (owned : store.owner? f name = some g) :
    ∃ value, (store.own g).find? name = some value ∧ store.get? f name = some value := by
  obtain ⟨_, binds⟩ := (chain.owner?_eq_some_iff formed).mp owned
  obtain ⟨value, found⟩ := Option.isSome_iff_exists.mp binds
  exact ⟨value, found, by rw [get?_eq_owner?, owned, Option.bind_some, found]⟩

theorem get?_eq_none_iff (chain : store.Chain f path) (formed : store.WellFormed) :
    store.get? f name = none ↔ ∀ g ∈ path, ¬ store.Binds g name := by
  have unowned : store.owner? f name = none ↔ ∀ g ∈ path, ¬ store.Binds g name := by
    rw [chain.owner?_eq formed, List.find?_eq_none]
    rfl
  rw [← unowned]
  cases owned : store.owner? f name with
  | none => simp [get?_eq_owner?, owned]
  | some owner =>
      obtain ⟨value, _, shown⟩ := chain.exists_of_owner? formed owned
      simp [shown]

end Chain

theorem get?_set_here (present : f < store.size) (name other : String) (value : Value) :
    (store.set f name value).get? f other =
      if other = name then some value else store.get? f other := by
  rw [← find?_visible, visible_set_self present, Table.find?_insert, find?_visible]

/-- After a name was bound in frame `f`, a lookup gives the new value if it is of that
name and the chain exposes `f`. Any other lookup gives what it gave before. -/
theorem Chain.get?_set (chain : store.Chain g path) (formed : store.WellFormed)
    (present : f < store.size) (name other : String) (value : Value) :
    (store.set f name value).get? g other =
      if other = name ∧ store.Exposes path name f then some value else store.get? g other := by
  induction chain with
  | @root g frame found link =>
      by_cases same : f = g
      · subst same
        rw [get?_set_here present]
        simp [exposes_cons]
      · have kept := (frame?_set_other (Ne.symm same) name value).trans found
        rw [get?_of_frame? kept, get?_of_frame? found, link]
        simp [Exposes, same]
  | @inner g frame outer path found link further ih =>
      by_cases same : f = g
      · subst same
        rw [get?_set_here present]
        simp [exposes_cons]
      · have kept := (frame?_set_other (Ne.symm same) name value).trans found
        obtain ⟨earlier, _⟩ := (formed g frame found).inner outer link
        rw [get?_of_frame? kept, get?_of_frame? found, link]
        simp only [Option.bind_some, if_pos earlier, ih, exposes_cons, same, false_or,
          binds_iff_of_frame? found]
        -- Where the frame binds the name itself, neither lookup goes further out.
        cases own : frame.bindings.find? other with
        | some old =>
            have hidden : ¬ (other = name ∧ ¬ (frame.bindings.find? name).isSome = true ∧
                store.Exposes path name f) := by
              rintro ⟨rfl, absent, _⟩
              simp [own] at absent
            rw [if_neg hidden, Option.some_or, Option.some_or]
        | none =>
            rw [Option.none_or, Option.none_or]
            by_cases named : other = name
            · subst named
              simp [own]
            · simp [named]

theorem get?_push_old (present : f < store.size) (frame : Frame) (name : String) :
    (store.push frame).get? f name = store.get? f name := by
  have same : (store.push frame).visible f = store.visible f :=
    visible_congr fun g bound => frame?_push_old (Nat.lt_of_le_of_lt bound present) frame
  rw [← find?_visible, same, find?_visible]

theorem get?_push_new {frame : Frame}
    (present : ∀ outer, frame.outer = some outer → outer < store.size) (name : String) :
    (store.push frame).get? store.size name =
      (frame.bindings.find? name).or (frame.outer.bind fun outer => store.get? outer name) := by
  rw [get?_of_frame? (frame?_push_new store frame)]
  cases link : frame.outer with
  | none => rfl
  | some outer =>
      have earlier := present outer link
      rw [Option.bind_some, Option.bind_some, if_pos earlier, get?_push_old earlier]

end Store

namespace Table

theorem find?_ofList_zip_of_not_mem {α : Type} {names : List String} {name : String}
    (absent : name ∉ names) (values : List α) :
    (ofList (names.zip values)).find? name = none := by
  rw [find?_ofList, Option.eq_none_iff_forall_ne_some]
  intro value found
  exact absent (List.of_mem_zip (List.mem_reverse.mp (mem_of_lookup found))).1

/-- A name that occurs has a last position. -/
theorem exists_last_position {names : List String} {name : String} (member : name ∈ names) :
    ∃ i, names[i]? = some name ∧ name ∉ names.drop (i + 1) := by
  induction names with
  | nil => cases member
  | cons first names ih =>
      by_cases later : name ∈ names
      · obtain ⟨i, named, last⟩ := ih later
        exact ⟨i + 1, named, last⟩
      · obtain rfl : name = first := (List.mem_cons.mp member).resolve_right later
        exact ⟨0, rfl, later⟩

end Table

namespace Eval

variable {s : State} {params : List String} {args : List Value} {outer : Option FrameId}

theorem outcome_lookup (f : FrameId) (name : String) (s : State) :
    (lookup f name).outcome s =
      ((s.store.get? f name).elim (.error (.unbound name)) .ok, s) := by
  cases found : s.store.get? f name with
  | none => exact outcome_lookup_none found
  | some value => exact outcome_lookup_some found

theorem outcome_lookup_eq_unbound_iff {f : FrameId} {name : String} :
    (lookup f name).outcome s = (.error (.unbound name), s) ↔ s.store.get? f name = none := by
  rw [outcome_lookup]
  cases s.store.get? f name <;> simp

theorem outcome_lookup_eq_ok_iff {f : FrameId} {name : String} {value : Value} :
    (lookup f name).outcome s = (.ok value, s) ↔ s.store.get? f name = some value := by
  rw [outcome_lookup]
  cases s.store.get? f name <;> simp

/-- What a lookup gives tells what is bound. -/
theorem get?_eq_of_lookup {s' : State} {f g : FrameId} {name : String}
    (same : ((lookup f name).outcome s).1 = ((lookup g name).outcome s').1) :
    s.store.get? f name = s'.store.get? g name := by
  rw [outcome_lookup, outcome_lookup] at same
  cases here : s.store.get? f name <;> cases there : s'.store.get? g name <;> simp_all

theorem openFrame_opened (count : params.length = args.length)
    (shallow : s.store.depthUnder outer < maxDepth) :
    (openFrame params args outer).outcome s =
      (.ok s.store.size,
        s.push ⟨.ofList (params.zip args), outer, s.store.depthUnder outer⟩) := by
  simp [outcome, openFrame, count, shallow]

theorem openFrame_wrongCount (count : params.length ≠ args.length) :
    (openFrame params args outer).outcome s =
      (.error (.arity (.exact params.length) args.length none), s) := by
  simp [outcome, openFrame, count]

theorem openFrame_tooDeep (count : params.length = args.length)
    (deep : ¬ s.store.depthUnder outer < maxDepth) :
    (openFrame params args outer).outcome s =
      (.error (.stackLimit (s.store.depthUnder outer)),
        s.record (.refused (s.store.depthUnder outer))) := by
  simp [outcome, openFrame, count, deep]

/-- A frame that is not opened leaves the store as it was. -/
theorem store_of_openFrame_error {error : Error} {s' : State}
    (failed : (openFrame params args outer).outcome s = (.error error, s')) :
    s'.store = s.store := by
  by_cases count : params.length = args.length
  · by_cases shallow : s.store.depthUnder outer < maxDepth
    · rw [openFrame_opened count shallow] at failed
      cases failed
    · rw [openFrame_tooDeep count shallow] at failed
      cases failed
      rfl
  · rw [openFrame_wrongCount count] at failed
    cases failed
    rfl

/-- A parameter of a new frame stands for the argument at its last position. -/
theorem lookup_opened_param (count : params.length = args.length) {name : String}
    (member : name ∈ params) (depth : Nat) :
    ∃ i arg, params[i]? = some name ∧ name ∉ params.drop (i + 1) ∧ args[i]? = some arg ∧
      (s.store.push ⟨.ofList (params.zip args), outer, depth⟩).get? s.store.size name =
        some arg := by
  obtain ⟨i, named, last⟩ := Table.exists_last_position member
  have bound : i < args.length := count ▸ (List.getElem?_eq_some_iff.mp named).1
  have placed : args[i]? = some args[i] := List.getElem?_eq_getElem bound
  refine ⟨i, args[i], named, last, placed, ?_⟩
  rw [Store.get?_of_frame? (Store.frame?_push_new _ _),
    Table.find?_ofList_zip named last placed, Option.some_or]

end Eval

/-- The law of lookups in a reachable store. Every frame `g` has one chain outward, and
the owner of a name there is the innermost frame of the chain that binds it. A lookup
gives the owner's value, or an error that names the name if no frame of the chain binds
it. After a name was bound in a frame `f`, lookups of it give the new value where the
chain exposes `f`, and every other lookup gives what it gave before.

A frame that is opened under a frame below the ceiling, with as many arguments as
parameters, shows for each parameter the argument at its last position and for every
other name what the outer frame shows. A wrong number of arguments is refused at any
depth, and no refusal changes the store. -/
theorem environment_lookup_law {s : State} (reachable : s.store.Reachable) :
    (∀ g, g < s.store.size → ∃ path, (∀ other, s.store.Chain g other ↔ other = path) ∧
      (∀ f name value other, f < s.store.size →
        ((Eval.lookup g other).outcome ((Eval.assign f name value).outcome s).2).1 =
          if other = name ∧ s.store.Exposes path name f then .ok value
          else ((Eval.lookup g other).outcome s).1) ∧
      ∀ name,
        (∀ owner, s.store.owner? g name = some owner ↔
          s.store.Exposes path name owner ∧ s.store.Binds owner name) ∧
        (∀ owner, s.store.owner? g name = some owner →
          ∃ value, (s.store.own owner).find? name = some value ∧
            (Eval.lookup g name).outcome s = (.ok value, s)) ∧
        ((Eval.lookup g name).outcome s = (.error (.unbound name), s) ↔
          ∀ f ∈ path, ¬ s.store.Binds f name)) ∧
    ∀ params args outer,
      ((∀ f, outer = some f → f < s.store.size) → params.length = args.length →
        s.store.depthUnder outer < maxDepth →
        ∃ frame s', (Eval.openFrame params args outer).outcome s = (.ok frame, s') ∧
          ∀ name,
            (name ∈ params → ∃ i arg, params[i]? = some name ∧ name ∉ params.drop (i + 1) ∧
              args[i]? = some arg ∧ (Eval.lookup frame name).outcome s' = (.ok arg, s')) ∧
            (name ∉ params → ((Eval.lookup frame name).outcome s').1 =
              match outer with
              | some f => ((Eval.lookup f name).outcome s).1
              | none => .error (.unbound name))) ∧
      (params.length ≠ args.length → (Eval.openFrame params args outer).outcome s =
        (.error (.arity (.exact params.length) args.length none), s)) ∧
      ∀ error s', (Eval.openFrame params args outer).outcome s = (.error error, s') →
        s'.store = s.store := by
  have formed := reachable.wellFormed
  constructor
  · intro g here
    obtain ⟨path, chain⟩ := formed.exists_chain here
    refine ⟨path, fun other => ⟨chain.unique, fun same => same ▸ chain⟩, ?_, ?_⟩
    · intro f name value other present
      have written : ((Eval.assign f name value).outcome s).2.store =
          s.store.set f name value := rfl
      rw [Eval.outcome_lookup, Eval.outcome_lookup, written,
        chain.get?_set formed present name other value]
      split <;> rfl
    · intro name
      refine ⟨fun owner => chain.owner?_eq_some_iff formed, ?_, ?_⟩
      · intro owner owned
        obtain ⟨value, found, shown⟩ := chain.exists_of_owner? formed owned
        exact ⟨value, found, Eval.outcome_lookup_some shown⟩
      · rw [Eval.outcome_lookup_eq_unbound_iff, chain.get?_eq_none_iff formed]
  · intro params args outer
    refine ⟨?_, Eval.openFrame_wrongCount, fun error s' => Eval.store_of_openFrame_error⟩
    intro present count shallow
    refine ⟨_, _, Eval.openFrame_opened count shallow, fun name => ⟨?_, ?_⟩⟩
    · intro member
      obtain ⟨i, arg, named, last, placed, shown⟩ := Eval.lookup_opened_param count member _
      exact ⟨i, arg, named, last, placed, Eval.outcome_lookup_some shown⟩
    · intro absent
      rw [Eval.outcome_lookup, State.push, Store.get?_push_new present,
        Table.find?_ofList_zip_of_not_mem absent, Option.none_or]
      cases outer with
      | none => rfl
      | some f => exact (congrArg Prod.fst (Eval.outcome_lookup f name s)).symm

/-- A root that binds a name, an empty frame under it with another one inside, and a
second empty frame under the root. -/
def State.family : State :=
  ⟨⟨#[⟨.ofList [("x", .int 1)], none, 0⟩, ⟨.empty, some 0, 1⟩, ⟨.empty, some 1, 2⟩,
    ⟨.empty, some 0, 1⟩]⟩, 0, #[]⟩

theorem State.reachable_family : State.family.store.Reachable := by
  have root : Store.Reachable ⟨#[⟨.ofList [("x", .int 1)], none, 0⟩]⟩ :=
    .step (.openFrame ["x"] [.int 1] none) ⟨⟨#[]⟩, 0, #[]⟩ .empty (fun _ link => nomatch link)
  have child : Store.Reachable ⟨#[⟨.ofList [("x", .int 1)], none, 0⟩, ⟨.empty, some 0, 1⟩]⟩ :=
    .step (.openFrame [] [] (some 0)) ⟨_, 0, #[]⟩ root (fun _ link => by cases link; decide)
  have grandchild : Store.Reachable ⟨#[⟨.ofList [("x", .int 1)], none, 0⟩, ⟨.empty, some 0, 1⟩,
      ⟨.empty, some 1, 2⟩]⟩ :=
    .step (.openFrame [] [] (some 1)) ⟨_, 0, #[]⟩ child (fun _ link => by cases link; decide)
  exact .step (.openFrame [] [] (some 0)) ⟨_, 0, #[]⟩ grandchild
    (fun _ link => by cases link; decide)

/-- What is bound in one frame of the family hides the binding of the root from the frame
inside, and not from the other side of the family. Of two parameters with one name the
second one counts. -/
theorem environment_lookup_law_family :
    State.family.store.Reachable ∧
      (∀ value, ((Eval.lookup 2 "x").outcome
        ((Eval.assign 1 "x" value).outcome .family).2).1 = .ok value) ∧
      (∀ value, ((Eval.lookup 3 "x").outcome
        ((Eval.assign 1 "x" value).outcome .family).2).1 =
          ((Eval.lookup 3 "x").outcome .family).1) ∧
      ∃ frame s', (Eval.openFrame ["y", "y"] [.int 3, .int 4] (some 2)).outcome .family =
          (.ok frame, s') ∧
        (Eval.lookup frame "y").outcome s' = (.ok (.int 4), s') := by
  have reachable := State.reachable_family
  obtain ⟨frames, opens⟩ := environment_lookup_law reachable
  refine ⟨reachable, ?_, ?_, ?_⟩
  · intro value
    obtain ⟨path, unique, written, _⟩ := frames 2 (by decide)
    have chain : State.family.store.Chain 2 [2, 1, 0] :=
      .inner rfl rfl (.inner rfl rfl (.root rfl rfl))
    obtain rfl := (unique _).mp chain
    rw [written 1 "x" value "x" (by decide), if_pos (by decide)]
  · intro value
    obtain ⟨path, unique, written, _⟩ := frames 3 (by decide)
    have chain : State.family.store.Chain 3 [3, 0] := .inner rfl rfl (.root rfl rfl)
    obtain rfl := (unique _).mp chain
    rw [written 1 "x" value "x" (by decide), if_neg (by decide)]
  · obtain ⟨shows, _⟩ := opens ["y", "y"] [.int 3, .int 4] (some 2)
    obtain ⟨frame, s', opened, names⟩ :=
      shows (fun f link => by cases link; decide) rfl (by decide)
    obtain ⟨i, arg, named, last, placed, shown⟩ := (names "y").1 (by decide)
    refine ⟨frame, s', opened, ?_⟩
    rw [shown]
    match i with
    | 0 => exact absurd last (by decide)
    | 1 =>
        obtain rfl : .int 4 = arg := Option.some.inj placed
        rfl
    | i + 2 => cases placed

end DynamicLisp
