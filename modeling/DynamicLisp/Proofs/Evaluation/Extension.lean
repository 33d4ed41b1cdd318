import DynamicLisp.Proofs.Evaluation.Flow
import DynamicLisp.Proofs.Value.Identity

/-!
# Registering one more operator

Special forms come before primitives, and both before bindings. So a primitive under the
name of a special form is never found, and an operator under a new name is found only where
a list is headed by that name. Code that has no such list is evaluated as before: what runs
is the text of the expression and the bodies of closures, and a list that a program puts
together stays data, whatever its head.
-/

namespace DynamicLisp

section Hidden

variable {registry other : Registry}

mutual

/-- The registry is used in one place, where the head of a list is applied. -/
theorem Registry.evalWith_congr (same : other.apply = registry.apply) (inner : Inner)
    (f : FrameId) :
    (expr : Value) → other.evalWith inner f expr = registry.evalWith inner f expr
  | .symbol _ => rfl
  | .list [] => rfl
  | .list (head :: operands) => by
      rw [evalWith, evalWith, same, operandsWith_congr same inner f operands]
  | .nil => rfl
  | .bool _ => rfl
  | .int _ => rfl
  | .closure .. => rfl

theorem Registry.operandsWith_congr (same : other.apply = registry.apply) (inner : Inner)
    (f : FrameId) :
    (exprs : List Value) → other.operandsWith inner f exprs = registry.operandsWith inner f exprs
  | [] => rfl
  | expr :: exprs => by
      rw [operandsWith, operandsWith, evalWith_congr same inner f expr,
        operandsWith_congr same inner f exprs]

end

theorem Registry.evalWithin_congr (same : other.apply = registry.apply) (levels : Nat) :
    other.evalWithin levels = registry.evalWithin levels := by
  induction levels with
  | zero =>
      funext f expr
      exact evalWith_congr same _ f expr
  | succ levels ih =>
      funext f expr
      rw [evalWithin, evalWithin, ih]
      exact evalWith_congr same _ f expr

/-- A special form hides every primitive that has its name. -/
theorem Registry.apply_withPrimitive {name : String} {form : SpecialForm}
    (found : registry.forms.find? name = some form) (primitive : Primitive) :
    (registry.withPrimitive name primitive).apply = registry.apply := by
  funext inner f head operands
  cases head with
  | symbol called =>
      simp only [apply, withPrimitive]
      cases special : registry.forms.find? called with
      | some _ => rfl
      | none =>
          have distinct : called ≠ name := by
            rintro rfl
            rw [found] at special
            cases special
          rw [Table.find?_insert, if_neg distinct]
  | _ => rfl

theorem Registry.eval_withPrimitive_of_form {name : String} {form : SpecialForm}
    (found : registry.forms.find? name = some form) (primitive : Primitive) :
    (registry.withPrimitive name primitive).eval = registry.eval :=
  evalWithin_congr (apply_withPrimitive found primitive) levels

end Hidden

namespace Value

variable {name : String} {value body : Value} {items : List Value}

/-- No list that occurs in the code is headed by the name. -/
def Avoids (name : String) (code : Value) : Prop :=
  ∀ operands, ¬ (list (symbol name :: operands)).OccursIn code

/-- No list that occurs in the body of a closure of the value is headed by the name. -/
def ClosuresAvoid (name : String) (value : Value) : Prop :=
  ∀ id params body, (closure id params body).OccursIn value → body.Avoids name

theorem Avoids.of_occursIn (avoids : value.Avoids name) (occurs : body.OccursIn value) :
    body.Avoids name :=
  fun operands inside => avoids operands (inside.trans occurs)

/-- The closures of a list are the closures of its items. -/
theorem closuresAvoid_list :
    (list items).ClosuresAvoid name ↔ ∀ item ∈ items, item.ClosuresAvoid name := by
  constructor
  · intro avoid item member id params body occurs
    exact avoid id params body (.item member occurs)
  · intro avoid id params body occurs
    cases occurs with
    | item member inside => exact avoid _ member id params body inside

theorem Avoids.closuresAvoid (avoids : value.Avoids name) : value.ClosuresAvoid name :=
  fun _ _ _ occurs => avoids.of_occursIn (.trans (.body .refl) occurs)

/-- Code that avoids a name and data whose closures do are kept apart: a list that is headed
by the name may be data, but it is no code and in no body. -/
theorem discipline_avoids (name : String) :
    Discipline (Avoids name) (ClosuresAvoid name) where
  quoted avoids := avoids.closuresAvoid
  items avoids _ member := avoids.of_occursIn (.item member .refl)
  nil _ _ _ occurs := nomatch occurs
  bool _ _ _ _ occurs := nomatch occurs
  int _ _ _ _ occurs := nomatch occurs
  list := closuresAvoid_list
  closure {_ _ _} := by
    constructor
    · intro avoid
      exact avoid _ _ _ .refl
    · intro avoids id params body occurs
      cases occurs with
      | refl => exact avoids
      | body inside => exact avoids.closuresAvoid id params body inside

end Value

/-- The closures in a result are closures of the arguments. -/
def Primitive.HandsOnClosures (primitive : Primitive) : Prop :=
  ∀ f args s value s', (primitive.run f args).outcome s = (.ok value, s') →
    ∀ id params body, (Value.closure id params body).OccursIn value →
      ∃ arg ∈ args, (Value.closure id params body).OccursIn arg

theorem Primitive.HandsOnClosures.keeps {primitive : Primitive}
    (handsOn : primitive.HandsOnClosures) (name : String) :
    primitive.Keeps (Value.ClosuresAvoid name) := by
  intro f args s value s' avoid ran id params body occurs
  obtain ⟨arg, member, inside⟩ := handsOn f args s value s' ran id params body occurs
  exact avoid arg member id params body inside

/-- The frame exists, and what it shows is data. Other frames may hold anything. -/
structure Store.Sees (Data : Value → Prop) (f : FrameId) (store : Store) : Prop where
  present : f < store.size
  shows : ∀ {name value}, store.get? f name = some value → Data value

/-- One may require data only of what can be seen from a frame, since evaluation neither
looks at nor writes what cannot. -/
theorem Store.safeguard_sees (Data : Value → Prop) : Safeguard Data (Sees Data) where
  shows sees found := sees.shows found
  set {f store value} sees name data := by
    refine ⟨by rw [size_set]; exact sees.present, ?_⟩
    intro seen bound found
    rw [← find?_visible, visible_set_self sees.present, Table.find?_insert] at found
    split at found
    · exact Option.some.inj found ▸ data
    · rw [find?_visible] at found
      exact sees.shows found
  enter {f store bindings} sees data depth := by
    refine ⟨by simp, ?_⟩
    intro seen bound found
    rw [← find?_visible, visible_push_new sees.present, Table.find?_override] at found
    rcases Option.or_eq_some_iff.mp found with own | ⟨_, outer⟩
    · exact data seen bound own
    · rw [find?_visible] at outer
      exact sees.shows outer
  leave {f store frame after} sees writes _ := by
    refine ⟨(writes.of_inner f).lt_size sees.present, ?_⟩
    intro seen bound found
    rw [← find?_visible, writes.visible_of_inner sees.present, find?_visible] at found
    exact sees.shows found

section Transfer

variable {Code Data : Value → Prop} {Safe : FrameId → Store → Prop}
variable {registry other : Registry} {f : FrameId} {s s' : State}

/-- Two registries that resolve the heads of all lists of code alike derive the same
outcomes for code. -/
theorem Evaluates.transfer {task : Task} {outcome : Except Error Value}
    (h : Evaluates registry f task s outcome s') (fits : Value.Discipline Code Data)
    (guard : Store.Safeguard Data Safe) (leaves : registry.LeavesFrames)
    (makes : ∀ name primitive, registry.primitives.find? name = some primitive →
      primitive.Keeps Data)
    (agree : ∀ {head operands}, Code (.list (head :: operands)) → ∀ store f,
      other.resolve store f head = registry.resolve store f head)
    (code : task.Consists Code) (safe : Safe f s.store) :
    Evaluates other f task s outcome s' := by
  -- Every rule is applied again. What it evaluates is code, and it does so in a safe frame
  -- because the evaluations before it left the frame safe.
  induction h with
  | bound found => exact .bound found
  | unbound missing => exact .unbound missing
  | itself constant => exact .itself constant
  | unresolved resolved => exact .unresolved ((agree code _ _).trans resolved)
  | wrongCount resolved count => exact .wrongCount ((agree code _ _).trans resolved) count
  | quote resolved => exact .quote ((agree code _ _).trans resolved)
  | testFails resolved _ ih =>
      exact .testFails ((agree code _ _).trans resolved) (ih (fits.items code _ (by simp)) safe)
  | choose resolved tested _ first second =>
      obtain ⟨test, branch⟩ := fits.choice code _
      have later := (tested.keeps_safe fits guard leaves makes test safe).1
      exact .choose ((agree code _ _).trans resolved) (first test safe) (second branch later)
  | malformedTarget resolved shape =>
      exact .malformedTarget ((agree code _ _).trans resolved) shape
  | definitionFails resolved shape _ ih =>
      exact .definitionFails ((agree code _ _).trans resolved) shape
        (ih (fits.items code _ (by simp)) safe)
  | defineValue resolved shape _ ih =>
      exact .defineValue ((agree code _ _).trans resolved) shape
        (ih (fits.items code _ (by simp)) safe)
  | defineFunction resolved shape =>
      exact .defineFunction ((agree code _ _).trans resolved) shape
  | malformedParameters resolved shape =>
      exact .malformedParameters ((agree code _ _).trans resolved) shape
  | lambda resolved shape => exact .lambda ((agree code _ _).trans resolved) shape
  | operandFails resolved eager _ ih =>
      exact .operandFails ((agree code _ _).trans resolved) eager (ih (fits.operands code) safe)
  | primitive resolved _ ran grows ih =>
      exact .primitive ((agree code _ _).trans resolved) (ih (fits.operands code) safe) ran grows
  | callCount resolved _ count ih =>
      exact .callCount ((agree code _ _).trans resolved) (ih (fits.operands code) safe) count
  | callTooDeep resolved _ count deep ih =>
      exact .callTooDeep ((agree code _ _).trans resolved) (ih (fits.operands code) safe) count deep
  | call resolved before count shallow _ evaluated ran =>
      have body := fits.code_of_resolve (fits.head code) (guard.shows safe) resolved
      obtain ⟨later, data⟩ := before.keeps_safe fits guard leaves makes (fits.operands code) safe
      exact .call ((agree code _ _).trans resolved) (evaluated (fits.operands code) safe) count
        shallow (ran body (fits.safe_enter guard later (data _ rfl) _ _))
  | noOperands => exact .noOperands
  | firstFails _ ih => exact .firstFails (ih (code _ List.mem_cons_self) safe)
  | laterFails head _ first second =>
      obtain ⟨one, rest⟩ := List.forall_mem_cons.mp code
      exact .laterFails (first one safe)
        (second rest (head.keeps_safe fits guard leaves makes one safe).1)
  | operands head _ first second =>
      obtain ⟨one, rest⟩ := List.forall_mem_cons.mp code
      exact .operands (first one safe)
        (second rest (head.keeps_safe fits guard leaves makes one safe).1)

theorem Registry.eval_transfer (standard : registry.UsesStandardForms)
    (present : f < s.store.size) (fits : Value.Discipline Code Data)
    (guard : Store.Safeguard Data Safe) (leaves : registry.LeavesFrames)
    (makes : ∀ name primitive, registry.primitives.find? name = some primitive →
      primitive.Keeps Data)
    (agree : ∀ {head operands}, Code (.list (head :: operands)) → ∀ store f,
      other.resolve store f head = registry.resolve store f head)
    {expr : Value} (code : Code expr) (safe : Safe f s.store) :
    (other.eval f expr).outcome s = (registry.eval f expr).outcome s := by
  have begins : Config.Ends registry ⟨f, expr, s⟩ :=
    Config.ends standard (leaves.respectsFrames s.store) present
  obtain ⟨outcome, s', h⟩ := begins
  have h' : Evaluates other f (.expr expr) s outcome s' :=
    h.transfer fits guard leaves makes agree code safe
  rw [h.eval_eq present, h'.eval_eq present]

end Transfer

namespace Registry

variable {registry : Registry} {name : String}

/-- A new entry is found under its own name only. -/
theorem resolve_withPrimitive {head : Value} (distinct : head ≠ .symbol name)
    (primitive : Primitive) (store : Store) (f : FrameId) :
    (registry.withPrimitive name primitive).resolve store f head =
      registry.resolve store f head := by
  cases head with
  | symbol called =>
      have other : called ≠ name := fun same => distinct (congrArg Value.symbol same)
      simp only [resolve, withPrimitive, Table.find?_insert, if_neg other]
  | _ => rfl

theorem resolve_withForm {head : Value} (distinct : head ≠ .symbol name)
    (form : SpecialForm) (store : Store) (f : FrameId) :
    (registry.withForm name form).resolve store f head = registry.resolve store f head := by
  cases head with
  | symbol called =>
      have other : called ≠ name := fun same => distinct (congrArg Value.symbol same)
      simp only [resolve, withForm, Table.find?_insert, if_neg other]
  | _ => rfl

end Registry

/-- Where code avoids a name, no list of it is headed by that name. -/
theorem Value.Avoids.head_ne {name : String} {head : Value} {operands : List Value}
    (avoids : (list (head :: operands)).Avoids name) : head ≠ symbol name := by
  rintro rfl
  exact avoids operands .refl

/-- Registering one more operator in a registry with the standard special forms is
conservative. A primitive under the name of a special form changes nothing at all. An
operator under any name, whatever it does and whether the name is new or not, changes
nothing for an expression that has no list headed by the name, in a frame that shows no
closure with such a list in its body. The primitives that are there already may be any that
leave frames alone and return no closures but those they are given. What stays the same is
the outcome together with the whole state that is left: the store, the identities used up
and the log. -/
theorem extension_conservative {registry : Registry} (standard : registry.UsesStandardForms)
    (leaves : registry.LeavesFrames)
    (handsOn : ∀ name primitive, registry.primitives.find? name = some primitive →
      primitive.HandsOnClosures) (name : String) :
    (∀ form, registry.forms.find? name = some form → ∀ primitive f expr s,
      ((registry.withPrimitive name primitive).eval f expr).outcome s =
        (registry.eval f expr).outcome s) ∧
    ∀ (s : State) (f : FrameId), f < s.store.size → ∀ expr, expr.Avoids name →
      (∀ seen value, s.store.get? f seen = some value → value.ClosuresAvoid name) →
      (∀ primitive, ((registry.withPrimitive name primitive).eval f expr).outcome s =
        (registry.eval f expr).outcome s) ∧
      ∀ form, ((registry.withForm name form).eval f expr).outcome s =
        (registry.eval f expr).outcome s := by
  constructor
  · intro form found primitive f expr s
    rw [Registry.eval_withPrimitive_of_form found]
  · intro s f present expr avoids shows
    have makes : ∀ called primitive, registry.primitives.find? called = some primitive →
        primitive.Keeps (Value.ClosuresAvoid name) :=
      fun called primitive found => (handsOn called primitive found).keeps name
    have sees : Store.Sees (Value.ClosuresAvoid name) f s.store := ⟨present, shows _ _⟩
    constructor
    · intro primitive
      exact Registry.eval_transfer standard present (Value.discipline_avoids name)
        (Store.safeguard_sees _) leaves makes
        (fun code => Registry.resolve_withPrimitive code.head_ne primitive) avoids sees
    · intro form
      exact Registry.eval_transfer standard present (Value.discipline_avoids name)
        (Store.safeguard_sees _) leaves makes
        (fun code => Registry.resolve_withForm code.head_ne form) avoids sees

/-- The standard primitives make no closures. -/
theorem Primitive.handsOnClosures_of_find? {name : String} {primitive : Primitive}
    (found : Registry.standard.primitives.find? name = some primitive) :
    primitive.HandsOnClosures := by
  intro f args s value s' ran
  have keeps : primitive.Keeps fun value => ∀ id params body,
      (Value.closure id params body).OccursIn value →
        ∃ arg ∈ args, (Value.closure id params body).OccursIn arg := by
    refine keeps_standard ?_ ?_ ?_ ?_ found
    · intro id params body occurs
      cases occurs
    · intro b id params body occurs
      cases occurs
    · intro n id params body occurs
      cases occurs
    · intro items
      constructor
      · intro each item member id params body occurs
        exact each id params body (.item member occurs)
      · intro each id params body occurs
        cases occurs with
        | item member inside => exact each _ member id params body inside
  refine keeps f args s value s' ?_ ran
  intro arg member id params body occurs
  exact ⟨arg, member, occurs⟩

/-- A root that binds a function and a list of data whose head is the symbol `answer`. -/
def State.holdingAnswer : State :=
  ⟨⟨#[⟨.ofList [("data", .list [.symbol "answer", .int 1]),
    ("first", .closure 0 ["x"] (.list [.symbol "car", .symbol "x"]))], none, 0⟩]⟩, 1, #[]⟩

theorem State.get?_holdingAnswer {seen : String} {value : Value}
    (found : holdingAnswer.store.get? 0 seen = some value) :
    value = .list [.symbol "answer", .int 1] ∨
      value = .closure 0 ["x"] (.list [.symbol "car", .symbol "x"]) := by
  have frame : holdingAnswer.store.frame? 0 = some ⟨.ofList
      [("data", .list [.symbol "answer", .int 1]),
        ("first", .closure 0 ["x"] (.list [.symbol "car", .symbol "x"]))], none, 0⟩ := rfl
  rw [Store.get?_of_frame? frame, Option.bind_none, Option.or_none, Table.find?_ofList] at found
  have member := List.mem_reverse.mp (Table.mem_of_lookup found)
  simp only [List.mem_cons, Prod.mk.injEq, List.not_mem_nil, or_false] at member
  rcases member with ⟨_, rfl⟩ | ⟨_, rfl⟩
  · exact .inl rfl
  · exact .inr rfl

/-- A short list of symbols under another head avoids a name. -/
theorem Value.avoids_call {name called : String} (distinct : called ≠ name) (operand : String) :
    (list [symbol called, symbol operand]).Avoids name := by
  intro operands occurs
  cases occurs with
  | refl => exact distinct rfl
  | item member inside =>
      simp only [List.mem_cons, List.not_mem_nil, or_false] at member
      rcases member with rfl | rfl <;> cases inside

/-- A primitive called `quote` is never found. An operator called `answer` does not get in
the way of a function that is called on a list headed by that symbol. -/
theorem extension_conservative_answer :
    Registry.standard.UsesStandardForms ∧ Registry.standard.LeavesFrames ∧
      (∀ name primitive, Registry.standard.primitives.find? name = some primitive →
        primitive.HandsOnClosures) ∧
      Registry.standard.forms.find? "quote" = some .quote ∧
      0 < State.holdingAnswer.store.size ∧
      (Value.list [.symbol "first", .symbol "data"]).Avoids "answer" ∧
      (∀ primitive f expr s,
        ((Registry.standard.withPrimitive "quote" primitive).eval f expr).outcome s =
          (Registry.standard.eval f expr).outcome s) ∧
      ∀ form,
        ((Registry.standard.withForm "answer" form).eval 0
          (.list [.symbol "first", .symbol "data"])).outcome .holdingAnswer =
        (Registry.standard.eval 0
          (.list [.symbol "first", .symbol "data"])).outcome .holdingAnswer := by
  have handsOn : ∀ name primitive, Registry.standard.primitives.find? name = some primitive →
      primitive.HandsOnClosures := fun _ _ => Primitive.handsOnClosures_of_find?
  have quote : Registry.standard.forms.find? "quote" = some .quote := by
    simp [Registry.find?_standard_forms]
  have present : 0 < State.holdingAnswer.store.size := by decide
  have avoids : (Value.list [.symbol "first", .symbol "data"]).Avoids "answer" :=
    Value.avoids_call (by decide) "data"
  have standard := Registry.standard_usesStandardForms
  have leaves := Registry.standard_leavesFrames
  obtain ⟨hidden, _⟩ := extension_conservative standard leaves handsOn "quote"
  obtain ⟨_, unused⟩ := extension_conservative standard leaves handsOn "answer"
  refine ⟨standard, leaves, handsOn, quote, present, avoids, hidden _ quote, ?_⟩
  refine (unused .holdingAnswer 0 present _ avoids ?_).2
  intro seen value found
  rcases State.get?_holdingAnswer found with rfl | rfl
  · intro id params body occurs
    cases occurs with
    | item member inside =>
        simp only [List.mem_cons, List.not_mem_nil, or_false] at member
        rcases member with rfl | rfl <;> cases inside
  · exact (Value.discipline_avoids "answer").closure.mpr (Value.avoids_call (by decide) "x")

end DynamicLisp
