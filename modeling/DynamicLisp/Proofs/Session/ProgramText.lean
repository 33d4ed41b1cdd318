import DynamicLisp.Proofs.Evaluation.Flow
import DynamicLisp.Proofs.Evaluation.Origin
import DynamicLisp.Proofs.Evaluation.Reads
import DynamicLisp.Proofs.Evaluation.Termination
import DynamicLisp.Proofs.Reader.Readable
import DynamicLisp.Session

/-!
# Programs that come from text

Text cannot write a closure, so a form that was read holds none. Evaluation makes
closures, but only around parts of the forms that it evaluates, and it never evaluates
what it has made. So in a session whose forms are all read from text, nothing but
program text is ever evaluated, a list never has a closure at its head, and every call
and every complaint about the number of arguments has a name.
-/

namespace DynamicLisp

namespace Value

/-- The reader gives the value for some text in some dialect. -/
inductive IsRead (value : Value) : Prop where
  | one {d text} (read : readOne d text = .ok value)
  | next {d text rest} (read : readNext d text = .ok (some (value, rest)))
  | all {d text values} (read : readAll d text = .ok values) (member : value ∈ values)

/-- Values without nil, booleans and closures. -/
inductive Textual : Value → Prop where
  | int (n : Integer) : Textual (.int n)
  | symbol (name : String) : Textual (.symbol name)
  | list {items} (textual : ∀ item ∈ items, Textual item) : Textual (.list items)

/-- A part of a form: the form itself, an item of it, an item of an item, and so on. -/
inductive Subterm (expr : Value) : Value → Prop where
  | refl : Subterm expr expr
  | item {item items} (member : item ∈ items) (inside : Subterm expr item) :
      Subterm expr (.list items)

/-- A part of one of the forms, and free of nil, booleans and closures. -/
structure CodeOf (forms : List Value) (expr : Value) : Prop where
  textual : expr.Textual
  occurs : ∃ form ∈ forms, expr.Subterm form

/-- The body of every closure that occurs in the value, in lists and in bodies
included, is code of the forms. -/
def ClosuresFrom (forms : List Value) (value : Value) : Prop :=
  ∀ body ∈ value.bodies, body.CodeOf forms

variable {forms : List Value} {expr form : Value}

theorem Legible.textual {d : Dialect} (legible : form.Legible d) : form.Textual := by
  induction legible with
  | int n => exact .int n
  | symbol => exact .symbol _
  | list _ ih => exact .list ih

theorem IsRead.textual (read : form.IsRead) : form.Textual := by
  cases read with
  | one read => exact (readable_of_readOne read).legible.textual
  | next read => exact (readable_of_readNext read).legible.textual
  | all read member => exact (readable_of_readAll read form member).legible.textual

theorem Textual.bodies_eq_nil (textual : expr.Textual) : expr.bodies = [] := by
  induction textual with
  | int | symbol => rfl
  | list _ ih =>
      rw [bodies, List.eq_nil_iff_forall_not_mem]
      intro body member
      obtain ⟨item, inside, found⟩ := mem_bodiesOfAll.mp member
      rw [ih item inside] at found
      cases found

theorem Subterm.of_list {items : List Value} {item : Value} (member : item ∈ items)
    (occurs : (Value.list items).Subterm form) : item.Subterm form := by
  induction occurs with
  | refl => exact .item member .refl
  | item outer _ ih => exact .item outer ih

theorem CodeOf.isClosure_eq_false (code : expr.CodeOf forms) : expr.isClosure = false := by
  cases code.textual <;> rfl

/-- The parts of the forms are code, and what closures hold of them is data. -/
theorem discipline_codeOf (forms : List Value) :
    Discipline (CodeOf forms) (ClosuresFrom forms) where
  quoted code := by
    intro body member
    rw [code.textual.bodies_eq_nil] at member
    cases member
  items code := by
    obtain ⟨textual, form, member, occurs⟩ := code
    cases textual with
    | list textual =>
        intro item inside
        exact ⟨textual item inside, form, member, occurs.of_list inside⟩
  nil := by simp [ClosuresFrom, bodies]
  bool _ := by simp [ClosuresFrom, bodies]
  int _ := by simp [ClosuresFrom, bodies]
  list := forall_mem_bodies_list
  closure := by
    intro id params body
    constructor
    · intro closures
      exact closures body (by simp [bodies])
    · intro code
      simpa [ClosuresFrom, bodies, code.textual.bodies_eq_nil] using code

end Value

section Sessions

open Value

variable {forms : List Value} {s : State}

/-- The states of a session that evaluates some of the forms in the root frame. -/
structure State.OfText (forms : List Value) (s : State) : Prop where
  present : 0 < s.store.size
  holds : s.store.Holds (ClosuresFrom forms)
  named : s.NamesCalls

theorem State.ofText_initial (forms : List Value) : State.initial.OfText forms where
  present := by decide
  holds := Store.holds_initial _
  named := by
    intro arguments depth member
    exact absurd member (Array.not_mem_empty _)

/-- One form. -/
theorem Registry.eval_ofText {form : Value} (code : form.CodeOf forms) (ofText : s.OfText forms) :
    ((standard.eval 0 form).outcome s).2.OfText forms := by
  obtain ⟨present, holds, named⟩ := ofText
  obtain ⟨outcome, s', ran, h⟩ := standard_outcome present form
  have fits := discipline_codeOf forms
  rw [ran]
  exact ⟨h.writesOwn.lt_size present, (h.keeps fits code holds).1,
    h.namesCalls fits CodeOf.isClosure_eq_false code holds named⟩

/-- All forms, whether or not they fail. -/
theorem Registry.evalForms_ofText {later : List Value} (code : ∀ form ∈ later, form.CodeOf forms)
    (ofText : s.OfText forms) : (standard.evalForms 0 later s).2.OfText forms := by
  induction later generalizing s with
  | nil => exact ofText
  | cons form later ih =>
      obtain ⟨first, rest⟩ := List.forall_mem_cons.mp code
      exact ih rest (eval_ofText first ofText)

/-- What can be said of an evaluation, at any depth of calls, in a session on the given
forms. -/
structure Config.RunsText (forms : List Value) (c : Config) : Prop where
  /-- Program text is evaluated. -/
  code : c.expr.CodeOf forms
  /-- A closure never stands at the head of a list. -/
  plain : ∀ id params body operands, c.expr ≠ .list (.closure id params body :: operands)
  /-- The frames bind only closures around program text. -/
  store : c.state.store.Holds (ClosuresFrom forms)
  /-- So do the values of the operands. -/
  arguments : ∀ head operands args s₁, c.expr = .list (head :: operands) →
    Evaluates .standard c.frame (.operands operands) c.state (.ok (.list args)) s₁ →
      ∀ arg ∈ args, arg.ClosuresFrom forms
  /-- There is an outcome, and what holds of the state holds after it too. Records of calls
  have names. An arity error has the name of the symbol at the head of the list that raised
  it, counts the operands of that list and expects an arity that rejects their number. -/
  ends : ∃ outcome s', (Registry.standard.eval c.frame c.expr).outcome c.state = (outcome, s') ∧
    s'.store.Holds (ClosuresFrom forms) ∧
    (∀ arguments depth, Record.call none arguments depth ∉ s'.log) ∧
    (∀ value, outcome = .ok value → value.ClosuresFrom forms) ∧
    ∀ expected got operator, outcome = .error (.arity expected got operator) →
      ∃ origin name operands, Relation.ReflTransGen (Demands .standard) c origin ∧
        origin.Raises .standard (.arity expected got operator) ∧
        origin.expr = .list (.symbol name :: operands) ∧ operator = some name ∧
        got = operands.length ∧ expected.admits got = false

theorem Config.Disciplined.plain {c : Config}
    (disciplined : c.Disciplined (CodeOf forms) (ClosuresFrom forms)) (id : ClosureId)
    (params : List String) (body : Value) (operands : List Value) :
    c.expr ≠ .list (.closure id params body :: operands) := by
  intro shape
  have code := disciplined.code
  rw [shape] at code
  have head := (discipline_codeOf forms).head code
  exact nomatch head.isClosure_eq_false

theorem Config.Disciplined.runsText {c : Config}
    (disciplined : c.Disciplined (CodeOf forms) (ClosuresFrom forms))
    (present : c.frame < c.state.store.size) (named : c.state.NamesCalls) : c.RunsText forms := by
  have fits := discipline_codeOf forms
  obtain ⟨outcome, s', ran, h⟩ := Registry.standard_outcome present c.expr
  obtain ⟨holds, data⟩ := h.keeps fits disciplined.code disciplined.holds
  refine ⟨disciplined.code, disciplined.plain, disciplined.holds, ?_, outcome, s', ran, holds,
    h.namesCalls fits CodeOf.isClosure_eq_false disciplined.code disciplined.holds named, data, ?_⟩
  · intro head operands args s₁ shape evaluated
    have code := disciplined.code
    rw [shape] at code
    have kept := evaluated.keeps fits (fits.operands code) disciplined.holds
    exact fits.list.mp (kept.2 _ rfl)
  · rintro expected got operator rfl
    have fails : c.Fails .standard (.arity expected got operator) := ⟨s', h⟩
    obtain ⟨origin, steps, raised⟩ := fails.exists_origin present
    obtain ⟨name, operands, rest⟩ := raised.arity (disciplined.of_demands fits steps).plain
    exact ⟨origin, name, operands, steps, raised, rest⟩

/-- Every evaluation that a form goes through. -/
theorem State.OfText.runsText {form : Value} {c : Config} (ofText : s.OfText forms)
    (code : form.CodeOf forms)
    (reached : Relation.ReflTransGen (Demands .standard) ⟨0, form, s⟩ c) : c.RunsText forms := by
  obtain ⟨present, holds, named⟩ := ofText
  have fits := discipline_codeOf forms
  have disciplined : Config.Disciplined (CodeOf forms) (ClosuresFrom forms) ⟨0, form, s⟩ :=
    ⟨code, holds⟩
  apply (disciplined.of_demands fits reached).runsText (Config.present_of_demands reached present)
  exact State.NamesCalls.of_demands named fits CodeOf.isClosure_eq_false disciplined reached

/-- In a session on forms that were read from text, evaluated one after the other in an
empty root frame under the standard registry and whether or not they fail, only program
text is ever evaluated, and every call and every arity error has a name. This holds of
every evaluation that one of the forms goes through. -/
theorem session_runs_text {before : List Value} {form : Value}
    (read : ∀ expr ∈ before ++ [form], expr.IsRead) {c : Config}
    (reached : Relation.ReflTransGen (Demands .standard)
      ⟨0, form, (Registry.standard.evalForms 0 before .initial).2⟩ c) :
    c.RunsText (before ++ [form]) := by
  have code : ∀ expr ∈ before ++ [form], expr.CodeOf (before ++ [form]) :=
    fun expr member => ⟨(read expr member).textual, expr, member, .refl⟩
  obtain ⟨earlier, last⟩ := List.forall_mem_append.mp code
  have ofText := Registry.evalForms_ofText earlier (State.ofText_initial _)
  exact ofText.runsText (last form List.mem_cons_self) reached

end Sessions

section SelfCall

/-- The definition `(define (call g) (g))`. -/
def Value.callDefinition : Value :=
  .list [.symbol "define", .list [.symbol "call", .symbol "g"], .list [.symbol "g"]]

/-- The call `(call call)`. -/
def Value.selfCall : Value := .list [.symbol "call", .symbol "call"]

/-- The state after the definition. -/
def State.calling : State := State.initial.defineFunction 0 "call" ["g"] (.list [.symbol "g"])

/-- The state in which the body is evaluated. -/
def State.selfCalling : State :=
  State.calling.enter 0 (some "call") ["g"] [.closure 0 ["g"] (.list [.symbol "g"])]

theorem State.evalForms_callDefinition :
    (Registry.standard.evalForms 0 [.callDefinition] .initial).2 = .calling := by
  have defined : Evaluates .standard 0 (.expr .callDefinition) .initial
      (.ok (.closure 0 ["g"] (.list [.symbol "g"]))) .calling := .defineFunction rfl rfl
  rw [Registry.evalForms, defined.eval_eq (by decide)]
  rfl

/-- The function is called on itself and then, under the name of its parameter, without
arguments. -/
theorem State.evaluates_selfCall :
    Evaluates .standard 0 (.expr .selfCall) .calling (.error (.arity (.exact 1) 0 (some "g")))
      .selfCalling := by
  have bound : State.calling.store.get? 0 "call" =
      some (.closure 0 ["g"] (.list [.symbol "g"])) := by
    rw [Store.get?_of_frame? rfl]
    rfl
  have passed : State.selfCalling.store.get? 1 "g" =
      some (.closure 0 ["g"] (.list [.symbol "g"])) := by
    rw [Store.get?_of_frame? rfl]
    rfl
  have resolves {store : Store} {f : FrameId} {name : String}
      (unregistered : Registry.standard.forms.find? name = none ∧
        Registry.standard.primitives.find? name = none)
      (found : store.get? f name = some (.closure 0 ["g"] (.list [.symbol "g"]))) :
      Registry.standard.resolve store f (.symbol name) =
        .ok (.closure (some name) ["g"] (.list [.symbol "g"])) := by
    simp only [Registry.resolve, unregistered.1, unregistered.2, found]
  exact .call (resolves ⟨rfl, rfl⟩ bound) (.operands (.bound bound) .noOperands) rfl (by decide)
    (.callCount (resolves ⟨rfl, rfl⟩ passed) .noOperands (by decide))

/-- The closure is passed as an argument, and the failing call is one inside the form. -/
theorem session_runs_text_selfCall :
    (∀ expr ∈ [Value.callDefinition, .selfCall], expr.IsRead) ∧
      Config.RunsText [.callDefinition, .selfCall] ⟨0, .selfCall, .calling⟩ ∧
      ((Registry.standard.eval 0 .selfCall).outcome .calling).1 =
        .error (.arity (.exact 1) 0 (some "g")) := by
  have read : ∀ expr ∈ [Value.callDefinition] ++ [.selfCall], expr.IsRead := by
    have definition : readOne .plain "(define (call g) (g))".toList = .ok .callDefinition := rfl
    have call : readOne .plain "(call call)".toList = .ok .selfCall := rfl
    simp only [List.singleton_append, List.forall_mem_cons]
    exact ⟨.one definition, .one call, by simp⟩
  refine ⟨read, ?_, ?_⟩
  · have runs := session_runs_text read .refl
    rwa [State.evalForms_callDefinition] at runs
  · rw [State.evaluates_selfCall.eval_eq (by decide)]

end SelfCall

end DynamicLisp
