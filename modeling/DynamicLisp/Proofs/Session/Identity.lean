import DynamicLisp.Proofs.Evaluation.Closures
import DynamicLisp.Proofs.Evaluation.Handing
import DynamicLisp.Proofs.Session.ProgramText
import DynamicLisp.Value.Text

/-!
# The identities of closures in a session

A host reads and builds values, opens frames, binds names, evaluates and calls. At every
moment of such a session, also in the middle of an evaluation, some closures exist: those
that the frames bind, those in code and results, and those in values that an evaluation
has computed and not yet used. One book has entries for all of them, so an identity
stands for one closure, and the identity of a new closure is a place after the end of the
book.
-/

namespace DynamicLisp

open Value

variable {book : Book} {f : FrameId} {s : State}

namespace Operation

/-- The values that a step is given. -/
def inputs : Operation → List Value
  | root | nest .. => []
  | openFrame _ args _ => args
  | set _ _ value => [value]
  | eval _ _ expr => [expr]
  | call _ _ _ body args => body :: args

/-- The value that a step returns if it evaluates something and that does not fail. -/
def result? : Operation → State → Option Value
  | eval registry f expr, s => ((registry.eval f expr).outcome s).1.toOption
  | call registry f params body args, s =>
    ((registry.call f params body args).outcome s).1.toOption
  | _, _ => none

/-- A step that evaluates does so with the standard registry. -/
def IsStandard : Operation → Prop
  | eval registry .. => registry = .standard
  | call registry .. => registry = .standard
  | _ => True

end Operation

/-- Evaluating `c` goes on with `next` when it has evaluated some items of its list to the
values `computed`: a test, the operands before `next`, or the arguments of a call. -/
structure Config.Proceeds (c : Config) (computed : List Value) (next : Config) : Prop where
  demands : Demands .standard c next
  computes : ∃ items done s₁, c.expr = .list items ∧ done ⊆ items ∧
    Evaluates .standard c.frame (.operands done) c.state (.ok (.list computed)) s₁ ∧
    (next.state = s₁ ∨ ∃ name params, next.state = s₁.enter c.frame name params computed)

/-- A moment of a session: the state, and the values that exist outside the store. These
are the values that the host has built, given or received, and the code and the computed
values of evaluations that have not ended. -/
structure Moment where
  state : State
  values : List Value

namespace Moment

/-- A value occurs somewhere at the moment: in what some frame binds, or outside the
store. -/
inductive Has (m : Moment) (part : Value) : Prop where
  | bound {f frame name value} (found : m.state.store.frame? f = some frame)
      (bound : frame.bindings.find? name = some value) (occurs : part.OccursIn value)
  | outside {value} (member : value ∈ m.values) (occurs : part.OccursIn value)

/-- All closures of a value exist at the moment. A host can put such a value together. -/
def Knows (m : Moment) (value : Value) : Prop :=
  ∀ id params body, (closure id params body).OccursIn value → m.Has (.closure id params body)

/-- The moments that a session comes to. It starts without frames. The host builds
closures, each with an identity of its own, and takes steps with values made of closures
that exist, whether or not a step fails. Between the beginning and the end of an
evaluation there are the moments at which the evaluations inside it begin. -/
inductive Reachable : Moment → Prop where
  | start (supply : ClosureId) (log : Array Record) : Reachable ⟨⟨⟨#[]⟩, supply, log⟩, []⟩
  | build {s values} (params : List String) {body : Value} (earlier : Reachable ⟨s, values⟩)
      (known : Knows ⟨s, values⟩ body) :
      Reachable ⟨s.nextClosure, .closure s.supply params body :: values⟩
  | step {s values} (operation : Operation) (earlier : Reachable ⟨s, values⟩)
      (admissible : operation.Admissible s.store) (standard : operation.IsStandard)
      (known : ∀ value ∈ operation.inputs, Knows ⟨s, values⟩ value) :
      Reachable ⟨operation.run s, operation.inputs ++ (operation.result? s).toList ++ values⟩
  | inside {c next : Config} {computed values : List Value}
      (earlier : Reachable ⟨c.state, values⟩) (present : c.frame < c.state.store.size)
      (known : Knows ⟨c.state, values⟩ c.expr) (proceeds : c.Proceeds computed next) :
      Reachable ⟨next.state, c.expr :: next.expr :: (computed ++ values)⟩

end Moment

section Steps

/-- What occurs in text is text. -/
theorem Value.Textual.occursIn {part value : Value} (textual : value.Textual)
    (occurs : part.OccursIn value) : part.Textual := by
  induction occurs with
  | refl => exact textual
  | item member _ ih =>
      obtain _ | _ | inside := textual
      exact ih (inside _ member)
  | body => cases textual

theorem Moment.Has.knows {m : Moment} {value : Value} (has : m.Has value) : m.Knows value := by
  intro id params body occurs
  cases has with
  | bound found bound outer => exact .bound found bound (occurs.trans outer)
  | outside member outer => exact .outside member (occurs.trans outer)

/-- A value is entered in the book if each of its closures is. -/
theorem Value.recorded_of_closures (value : Value)
    (each : ∀ id params body, (closure id params body).OccursIn value →
      (closure id params body).Recorded book) : value.Recorded book := by
  match value with
  | .nil => exact .nil
  | .bool b => exact .bool b
  | .int n => exact .int n
  | .symbol name => exact .symbol name
  | .list items =>
      refine .list fun item member => recorded_of_closures item ?_
      intro id params body occurs
      exact each id params body (.item member occurs)
  | .closure id params body => exact each id params body .refl

/-- Everything that exists at the moment is entered in the book. -/
structure Moment.Covered (book : Book) (m : Moment) : Prop where
  state : m.state.Covered book
  values : ∀ value ∈ m.values, value.Recorded book

variable {m : Moment}

theorem Moment.Covered.recorded_of_has (covered : m.Covered book) {part : Value}
    (has : m.Has part) : part.Recorded book := by
  cases has with
  | bound found bound occurs => exact (covered.state.holds _ _ found _ _ bound).occursIn occurs
  | outside member occurs => exact (covered.values _ member).occursIn occurs

theorem Moment.Covered.recorded_of_knows (covered : m.Covered book) {value : Value}
    (known : m.Knows value) : value.Recorded book :=
  recorded_of_closures value fun id params body occurs =>
    covered.recorded_of_has (known id params body occurs)

theorem Enters.of_toOption {outcome : Except Error Value} (enters : Enters book outcome s) :
    ∃ later, book <+: later ∧ s.Covered later ∧
      ∀ value ∈ outcome.toOption.toList, value.Recorded later := by
  obtain ⟨later, grows, covered, recorded⟩ := enters
  refine ⟨later, grows, covered, fun value member => recorded value ?_⟩
  cases outcome with
  | ok value => simpa [Except.toOption, eq_comm] using member
  | error error => simp [Except.toOption] at member

/-- One step of the host. -/
theorem Operation.run_covered (operation : Operation)
    (admissible : operation.Admissible s.store) (standard : operation.IsStandard)
    (covered : s.Covered book) (recorded : ∀ value ∈ operation.inputs, value.Recorded book) :
    ∃ later, book <+: later ∧ (operation.run s).Covered later ∧
      ∀ value ∈ (operation.result? s).toList, value.Recorded later := by
  cases operation with
  | root =>
      refine ⟨book, List.prefix_rfl, covered.push ?_, by simp [result?]⟩
      intro name value bound
      cases bound
  | openFrame params args outer =>
      exact ⟨book, List.prefix_rfl, Eval.openFrame_covered covered recorded params outer,
        by simp [result?]⟩
  | nest count f =>
      exact ⟨book, List.prefix_rfl, Eval.nest_covered covered count f, by simp [result?]⟩
  | set f name value =>
      exact ⟨book, List.prefix_rfl, covered.set f name (recorded value (by simp [inputs])),
        by simp [result?]⟩
  | eval registry f expr =>
      obtain rfl : registry = .standard := standard
      have code : expr.Recorded book := recorded expr (by simp [inputs])
      exact (Registry.eval_enters admissible.2.2 covered code).of_toOption
  | call registry f params body args =>
      obtain rfl : registry = .standard := standard
      obtain ⟨inside, arguments⟩ := List.forall_mem_cons.mp recorded
      exact (Registry.call_enters admissible.2.2 covered params inside arguments).of_toOption

/-- Every evaluation inside another begins when some values have been computed. -/
theorem Demands.exists_proceeds {c next : Config} (h : Demands .standard c next) :
    ∃ computed, c.Proceeds computed next := by
  cases h with
  | test resolved =>
      exact ⟨[], .test resolved, _, [], _, rfl, List.nil_subset _, .noOperands, .inl rfl⟩
  | branch resolved tested =>
      exact ⟨_, .branch resolved tested, _, [_], _, rfl, by simp, .operands tested .noOperands,
        .inl rfl⟩
  | definition resolved shape =>
      exact ⟨[], .definition resolved shape, _, [], _, rfl, List.nil_subset _, .noOperands,
        .inl rfl⟩
  | operand resolved eager evaluated =>
      refine ⟨_, .operand resolved eager evaluated, _, _, _, rfl, ?_, evaluated, .inl rfl⟩
      exact List.subset_cons_of_subset _ (List.subset_append_left _ _)
  | body resolved evaluated count shallow =>
      exact ⟨_, .body resolved evaluated count shallow, _, _, _, rfl, List.subset_cons_self _ _,
        evaluated, .inr ⟨_, _, rfl⟩⟩

/-- One evaluation inside another. -/
theorem Config.Proceeds.covered {c next : Config} {computed : List Value}
    (proceeds : c.Proceeds computed next) (present : c.frame < c.state.store.size)
    (covered : c.state.Covered book) (code : c.expr.Recorded book) :
    ∃ later, book <+: later ∧ next.state.Covered later ∧ next.expr.Recorded later ∧
      ∀ value ∈ computed, value.Recorded later := by
  obtain ⟨demands, items, done, s₁, shape, part, evaluated, after⟩ := proceeds
  have each := recorded_list.mp (shape ▸ code)
  have expr : next.expr.Recorded book := by
    obtain ⟨_, _, _, list, member⟩ | ⟨_, _, _, _, head, _, _, _, list, resolved⟩ :=
      demands.goesDown_or_goesIn present
    · exact code.occursIn (list ▸ .item member .refl)
    · have inside : head.Recorded book := code.occursIn (list ▸ .item List.mem_cons_self .refl)
      exact inside.of_resolve covered resolved
  obtain ⟨later, grows, covered, recorded⟩ :=
    evaluated.enters (fun expr member => each expr (part member)) covered
  have values := recorded_list.mp (recorded _ rfl)
  refine ⟨later, grows, ?_, expr.mono grows, values⟩
  obtain same | ⟨name, params, same⟩ := after
  · rw [same]
    exact covered
  · rw [same]
    exact covered.enter values c.frame name params

/-- At every moment there is one book for all closures. -/
theorem Moment.Reachable.covered (reachable : m.Reachable) : ∃ book, m.Covered book := by
  induction reachable with
  | start supply log =>
      refine ⟨List.replicate supply ([], .nil), ⟨?_, ?_⟩, by simp⟩
      · exact List.length_replicate
      · intro f frame found
        cases found
  | build params _ known ih =>
      obtain ⟨book, covered⟩ := ih
      obtain ⟨state, entered⟩ := covered.state.nextClosure params (covered.recorded_of_knows known)
      refine ⟨_, state, List.forall_mem_cons.mpr ⟨entered, ?_⟩⟩
      exact fun value member => (covered.values value member).mono (List.prefix_append _ _)
  | step operation _ admissible standard known ih =>
      obtain ⟨book, covered⟩ := ih
      have inputs := fun value member => covered.recorded_of_knows (known value member)
      obtain ⟨later, grows, state, results⟩ :=
        operation.run_covered admissible standard covered.state inputs
      refine ⟨later, state, ?_⟩
      simp only [List.forall_mem_append]
      exact ⟨⟨fun value member => (inputs value member).mono grows, results⟩,
        fun value member => (covered.values value member).mono grows⟩
  | @inside c next computed values _ present known proceeds ih =>
      obtain ⟨book, covered⟩ := ih
      have code := covered.recorded_of_knows known
      obtain ⟨later, grows, state, expr, results⟩ := proceeds.covered present covered.state code
      refine ⟨later, state, ?_⟩
      simp only [List.forall_mem_cons, List.forall_mem_append]
      exact ⟨code.mono grows, expr, results,
        fun value member => (covered.values value member).mono grows⟩

/-- Each evaluation inside another begins at a moment of the session. -/
theorem Moment.Reachable.of_demands (reachable : m.Reachable) (present : f < m.state.store.size)
    {expr : Value} (known : m.Knows expr) {c : Config}
    (steps : Relation.ReflTransGen (Demands .standard) ⟨f, expr, m.state⟩ c) :
    ∃ values, m.values ⊆ values ∧ Reachable ⟨c.state, values⟩ ∧
      Knows ⟨c.state, values⟩ c.expr := by
  induction steps with
  | refl => exact ⟨m.values, List.Subset.refl _, reachable, known⟩
  | tail before h ih =>
      obtain ⟨values, kept, reachable, known⟩ := ih
      obtain ⟨computed, proceeds⟩ := h.exists_proceeds
      have inside := Config.present_of_demands before present
      refine ⟨_, ?_, .inside reachable inside known proceeds, ?_⟩
      · intro value member
        simp [kept member]
      · exact Has.knows (.outside (List.mem_cons_of_mem _ List.mem_cons_self) .refl)

theorem Registry.outcome_evalText {registry : Registry} {d : Dialect} {text : List Char}
    {form : Value} (read : readOne d text = .ok form) (f : FrameId) (s : State) :
    (registry.evalText d f text).outcome s = (registry.eval f form).outcome s := by
  rw [evalText, read]
  rfl

/-- Text holds no closures, so a host can evaluate any. -/
theorem Moment.Reachable.evalText {values : List Value} (reachable : Reachable ⟨s, values⟩)
    (present : f < s.store.size) {d : Dialect} {text : List Char} {form : Value}
    (read : readOne d text = .ok form) :
    Reachable ⟨((Registry.standard.evalText d f text).outcome s).2,
      [form] ++ ((Registry.standard.evalText d f text).outcome s).1.toOption.toList ++ values⟩ := by
  have known : Knows ⟨s, values⟩ form := by
    intro id params body occurs
    exact nomatch (IsRead.one read).textual.occursIn occurs
  rw [Registry.outcome_evalText read]
  refine .step (.eval .standard f form) reachable ?_ rfl (by simpa [Operation.inputs] using known)
  exact ⟨Registry.standard_usesStandardForms, Registry.standard_respectsFrames, present⟩

end Steps

section Equality

/-- An expression that makes a closure: an abstraction, or the definition of a function. -/
inductive Value.Makes : Value → List String → Value → Prop where
  | lambda {names params body} (shape : SpecialForms.parameters names = .ok params) :
      Makes (.list [.symbol "lambda", names, body]) params body
  | define {signature name params body}
      (shape : SpecialForms.target signature = .ok (.function name params)) :
      Makes (.list [.symbol "define", signature, body]) params body

/-- Equality as programs see it makes sense at the moment. -/
structure Moment.TellsApart (m : Moment) : Prop where
  /-- One identity stands for one closure. -/
  consistent : ∀ {id params params' body body'}, m.Has (.closure id params body) →
    m.Has (.closure id params' body') → params = params' ∧ body = body'
  /-- A closure that is made now differs from all that exist. -/
  fresh : ∀ {f expr params body}, f < m.state.store.size → expr.Makes params body →
    ∃ id s', (Registry.standard.eval f expr).outcome m.state =
        (.ok (.closure id params body), s') ∧
      ∀ other params' body', m.Has (.closure other params' body') →
        (closure id params body).same (.closure other params' body') = false
  equivalence : Equivalence fun a b : {value // m.Knows value} => a.1.same b.1 = true
  texts : ∀ {a b}, m.Knows a → m.Knows b → a.same b = true →
    a.text = b.text ∧ a.inspect = b.inspect

theorem Value.Makes.evaluates {expr body : Value} {params : List String}
    (makes : expr.Makes params body) (f : FrameId) (s : State) :
    ∃ s', Evaluates .standard f (.expr expr) s (.ok (.closure s.supply params body)) s' := by
  cases makes with
  | lambda shape => exact ⟨_, .lambda rfl shape⟩
  | define shape => exact ⟨_, .defineFunction rfl shape⟩

variable {m : Moment}

theorem Moment.Covered.tellsApart (covered : m.Covered book) : m.TellsApart where
  consistent first second := by
    have entry := (recorded_closure.mp (covered.recorded_of_has first)).1
    have found := (recorded_closure.mp (covered.recorded_of_has second)).1
    rw [entry, Option.some.injEq, Prod.mk.injEq] at found
    exact found
  fresh := by
    intro f expr params body present makes
    obtain ⟨s', h⟩ := makes.evaluates f m.state
    refine ⟨m.state.supply, s', h.eval_eq present, fun other params' body' has => ?_⟩
    have entry := (recorded_closure.mp (covered.recorded_of_has has)).1
    have earlier : other < book.length := (List.getElem?_eq_some_iff.mp entry).1
    rw [covered.state.length] at earlier
    rw [same, beq_eq_false_iff_ne]
    exact Nat.ne_of_gt earlier
  equivalence := by
    have equal (a b : {value // m.Knows value}) : a.1.same b.1 = true ↔ a = b := by
      have first := covered.recorded_of_knows a.2
      rw [first.same_iff_eq (covered.recorded_of_knows b.2), Subtype.ext_iff]
    simp only [equal]
    exact eq_equivalence
  texts first second equal := by
    obtain rfl :=
      (covered.recorded_of_knows first).eq_of_same (covered.recorded_of_knows second) equal
    exact ⟨rfl, rfl⟩

end Equality

/-- At every moment of a session under the standard registry, an identity stands for one
closure, a closure that is made differs from all that exist, and equality as programs see
it is an equivalence that both texts of a value respect. Values stay the same when they
are handed on. The moments at which evaluations inside others begin are moments of the
session too, so this holds of every closure that is made, however deep in calls and
whether or not the evaluations around it fail later. -/
theorem session_closure_identity {m : Moment} (reachable : m.Reachable) :
    m.TellsApart ∧ m.state.HandsOn ∧
      ∀ f expr c, f < m.state.store.size → m.Knows expr →
        Relation.ReflTransGen (Demands .standard) ⟨f, expr, m.state⟩ c →
        ∃ values, m.values ⊆ values ∧ Moment.Reachable ⟨c.state, values⟩ ∧
          Moment.Knows ⟨c.state, values⟩ c.expr := by
  obtain ⟨book, covered⟩ := reachable.covered
  refine ⟨covered.tellsApart, m.state.handsOn, ?_⟩
  intro f expr c present known steps
  exact reachable.of_demands present known steps

section SameText

/-- The expression `(lambda (x) x)`. -/
def Value.lambdaExpr : Value :=
  .list [.symbol "lambda", .list [.symbol "x"], .symbol "x"]

/-- The moment after the text `(lambda (x) x)` was evaluated in a new session. -/
def Moment.afterLambda : Moment :=
  ⟨State.initial.nextClosure, [.lambdaExpr, .closure 0 ["x"] (.symbol "x")]⟩

theorem Moment.reachable_afterLambda : afterLambda.Reachable := by
  have opened : Reachable ⟨.initial, []⟩ :=
    .step .root (.start 0 #[]) trivial trivial (by simp [Operation.inputs])
  have read : readOne .plain "(lambda (x) x)".toList = .ok .lambdaExpr := rfl
  have made : Evaluates .standard 0 (.expr .lambdaExpr) .initial
      (.ok (.closure 0 ["x"] (.symbol "x"))) State.initial.nextClosure := .lambda rfl rfl
  have present : 0 < State.initial.store.size := by decide
  have reached := opened.evalText present read
  rwa [Registry.outcome_evalText read, made.eval_eq present] at reached

/-- The same text makes another closure. -/
theorem session_closure_identity_sameText :
    Moment.afterLambda.Reachable ∧ Moment.afterLambda.Has (.closure 0 ["x"] (.symbol "x")) ∧
      ∃ id s', (Registry.standard.eval 0 .lambdaExpr).outcome Moment.afterLambda.state =
          (.ok (.closure id ["x"] (.symbol "x")), s') ∧
        (closure id ["x"] (.symbol "x")).same (.closure 0 ["x"] (.symbol "x")) = false := by
  have first : Moment.afterLambda.Has (.closure 0 ["x"] (.symbol "x")) :=
    .outside (List.mem_cons_of_mem _ List.mem_cons_self) .refl
  have present : 0 < Moment.afterLambda.state.store.size := by decide
  have makes : Value.lambdaExpr.Makes ["x"] (.symbol "x") := .lambda rfl
  obtain ⟨id, s', evaluated, differs⟩ :=
    (session_closure_identity Moment.reachable_afterLambda).1.fresh present makes
  exact ⟨Moment.reachable_afterLambda, first, id, s', evaluated, differs 0 _ _ first⟩

end SameText

end DynamicLisp
