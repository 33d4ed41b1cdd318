import DynamicLisp.Proofs.Evaluation.Flow
import DynamicLisp.Proofs.Evaluation.Reachable
import DynamicLisp.Proofs.Value.Identity

/-!
# The book of closures

Evaluation makes closures in two places, and everywhere else it hands on the ones there
are. So a book of all closures made so far is kept along every evaluation: it grows by
one entry for each closure that is made, and what the frames bind and what is returned
stays entered in it. Nothing is ever taken out of the book, also when an evaluation fails
after it has made closures.
-/

namespace DynamicLisp

open Value

variable {book : Book} {f : FrameId} {s s' : State}

/-- The book has one entry for each identity that was handed out, and all closures that
the frames bind are entered in it. -/
structure State.Covered (book : Book) (s : State) : Prop where
  length : book.length = s.supply
  holds : s.store.Holds (Recorded book)

namespace State.Covered

theorem record (covered : s.Covered book) (event : Record) : (s.record event).Covered book :=
  ⟨covered.length, covered.holds⟩

theorem set (covered : s.Covered book) (f : FrameId) (name : String) {value : Value}
    (recorded : value.Recorded book) : (s.set f name value).Covered book :=
  ⟨covered.length, covered.holds.set f name recorded⟩

theorem push (covered : s.Covered book) {frame : Frame}
    (recorded : ∀ name value, frame.bindings.find? name = some value → value.Recorded book) :
    (s.push frame).Covered book :=
  ⟨covered.length, covered.holds.push recorded⟩

theorem enter (covered : s.Covered book) {args : List Value}
    (recorded : ∀ arg ∈ args, arg.Recorded book) (f : FrameId) (name : Option String)
    (params : List String) : (s.enter f name params args).Covered book := by
  refine (covered.push ?_).record _
  intro name value bound
  exact recorded value (find?_callee bound)

/-- A new closure is entered at the end of the book. -/
theorem nextClosure (covered : s.Covered book) (params : List String) {body : Value}
    (inside : body.Recorded book) :
    s.nextClosure.Covered (book ++ [(params, body)]) ∧
      (closure s.supply params body).Recorded (book ++ [(params, body)]) := by
  have grows : book <+: book ++ [(params, body)] := List.prefix_append _ _
  refine ⟨⟨?_, ?_⟩, .closure ?_ (inside.mono grows)⟩
  · show (book ++ [(params, body)]).length = s.supply + 1
    rw [List.length_append, covered.length]
    rfl
  · intro f frame found name value bound
    exact (covered.holds f frame found name value bound).mono grows
  · rw [← covered.length]
    exact List.getElem?_concat_length

end State.Covered

/-- The body of what the head of a list stands for is entered, because the closure is. -/
theorem Value.Recorded.of_resolve {registry : Registry} {head body : Value} {name : Option String}
    {params : List String} (recorded : head.Recorded book) (covered : s.Covered book)
    (resolved : registry.resolve s.store f head = .ok (.closure name params body)) :
    body.Recorded book := by
  have resolution := registry.resolution s.store f head
  rw [resolved] at resolution
  cases resolution with
  | bound _ _ found => exact (covered.holds.get? found).occursIn (.body .refl)
  | closure => exact recorded.occursIn (.body .refl)

/-- What is due to an outcome and the state it leaves: the book, with entries added, covers
the state and has all closures of the result. -/
def Enters (book : Book) (outcome : Except Error Value) (s : State) : Prop :=
  ∃ later, book <+: later ∧ s.Covered later ∧ ∀ value, outcome = .ok value → value.Recorded later

namespace Enters

variable {outcome : Except Error Value} {value : Value} {reason : Error}

theorem ok (covered : s.Covered book) (recorded : value.Recorded book) :
    Enters book (.ok value) s :=
  ⟨book, List.prefix_rfl, covered, fun _ same => Except.ok.inj same ▸ recorded⟩

theorem error (covered : s.Covered book) : Enters book (.error reason) s :=
  ⟨book, List.prefix_rfl, covered, fun _ same => nomatch same⟩

theorem of_grown {later : Book} (grows : book <+: later) (enters : Enters later outcome s) :
    Enters book outcome s := by
  obtain ⟨last, more, covered, recorded⟩ := enters
  exact ⟨last, grows.trans more, covered, recorded⟩

/-- The same entries do for a failure in the same state. -/
theorem failed (enters : Enters book outcome s) : Enters book (.error reason) s := by
  obtain ⟨later, grows, covered, _⟩ := enters
  exact of_grown grows (error covered)

end Enters

/-- Evaluation of code whose closures are entered adds entries to the book. -/
theorem Evaluates.enters {task : Task} {outcome : Except Error Value}
    (h : Evaluates .standard f task s outcome s') (code : task.Consists (Recorded book))
    (covered : s.Covered book) : Enters book outcome s' := by
  induction h generalizing book with
  | bound found => exact .ok covered (covered.holds.get? found)
  | unbound | unresolved | wrongCount | malformedTarget | malformedParameters =>
      exact .error covered
  | itself => exact .ok covered code
  | quote => exact .ok covered (recorded_list.mp code _ (by simp))
  | testFails _ _ ih | definitionFails _ _ _ ih =>
      exact ih (recorded_list.mp code _ (by simp)) covered
  | @choose _ _ _ yes no _ value _ _ _ _ _ _ _ first second =>
      have items := recorded_list.mp code
      obtain ⟨later, grows, covered, _⟩ := first (items _ (by simp)) covered
      have chosen : (if value.isFalse then no else yes).Recorded book := by
        split
        · exact items no (by simp)
        · exact items yes (by simp)
      exact .of_grown grows (second (chosen.mono grows) covered)
  | defineValue _ _ _ ih =>
      obtain ⟨later, grows, covered, recorded⟩ := ih (recorded_list.mp code _ (by simp)) covered
      exact .of_grown grows (.ok ((covered.record _).set _ _ (recorded _ rfl)) (.symbol _))
  | @defineFunction _ _ _ body =>
      have inside : body.Recorded book := recorded_list.mp code body (by simp)
      obtain ⟨covered, recorded⟩ := covered.nextClosure _ inside
      exact .of_grown (List.prefix_append _ _) (.ok ((covered.record _).set _ _ recorded) recorded)
  | @lambda _ _ _ body =>
      have inside : body.Recorded book := recorded_list.mp code body (by simp)
      obtain ⟨covered, recorded⟩ := covered.nextClosure _ inside
      exact .of_grown (List.prefix_append _ _) (.ok covered recorded)
  | operandFails _ _ _ ih | callCount _ _ _ ih =>
      exact (ih (List.forall_mem_cons.mp (recorded_list.mp code)).2 covered).failed
  | callTooDeep _ _ _ _ ih =>
      obtain ⟨later, grows, covered, _⟩ :=
        ih (List.forall_mem_cons.mp (recorded_list.mp code)).2 covered
      exact .of_grown grows (.error (covered.record _))
  | @primitive _ _ _ _ _ _ result _ _ _ resolved _ ran _ ih =>
      obtain rfl := Registry.eq_of_ran_standard resolved ran
      obtain ⟨later, grows, covered, recorded⟩ :=
        ih (List.forall_mem_cons.mp (recorded_list.mp code)).2 covered
      have found := Registry.find?_primitive_of_resolve resolved
      have keeps : Primitive.Keeps (Recorded later) _ :=
        Primitive.keeps_standard .nil .bool .int recorded_list found
      refine .of_grown grows ?_
      cases result with
      | error error => exact .error covered
      | ok value =>
          exact .ok covered (keeps.of_runChecked (recorded_list.mp (recorded _ rfl)) ran)
  | call resolved _ _ _ _ evaluated ran =>
      obtain ⟨head, operands⟩ := List.forall_mem_cons.mp (recorded_list.mp code)
      -- The head is resolved before the operands are evaluated, so with the first book.
      have body := head.of_resolve covered resolved
      obtain ⟨later, grows, covered, recorded⟩ := evaluated operands covered
      have args := recorded_list.mp (recorded _ rfl)
      exact .of_grown grows (ran (body.mono grows) (covered.enter args _ _ _))
  | noOperands => exact .ok covered (.list fun _ member => nomatch member)
  | firstFails _ ih => exact ih (code _ List.mem_cons_self) covered
  | laterFails _ _ first second =>
      obtain ⟨one, rest⟩ := List.forall_mem_cons.mp code
      obtain ⟨later, grows, covered, _⟩ := first one covered
      exact .of_grown grows (second (fun expr member => (rest expr member).mono grows) covered)
  | operands _ _ first second =>
      obtain ⟨one, rest⟩ := List.forall_mem_cons.mp code
      obtain ⟨later, grows, covered, recorded⟩ := first one covered
      obtain ⟨last, more, covered, values⟩ :=
        second (fun expr member => (rest expr member).mono grows) covered
      refine .of_grown (grows.trans more) (.ok covered (.list ?_))
      exact List.forall_mem_cons.mpr ⟨(recorded _ rfl).mono more, recorded_list.mp (values _ rfl)⟩

section Actions

theorem Eval.openFrame_covered (covered : s.Covered book) {args : List Value}
    (recorded : ∀ arg ∈ args, arg.Recorded book) (params : List String)
    (outer : Option FrameId) : ((openFrame params args outer).outcome s).2.Covered book := by
  by_cases count : params.length = args.length
  · by_cases shallow : s.store.depthUnder outer < maxDepth
    · simp only [outcome, openFrame, count, shallow, if_true]
      exact covered.push fun _ value bound => recorded value (Table.mem_of_find?_ofList_zip bound)
    · simpa only [outcome, openFrame, count, shallow, if_true, if_false] using covered.record _
  · simpa only [outcome, openFrame, count, if_false] using covered

theorem Eval.nest_covered (covered : s.Covered book) (count : Nat) (f : FrameId) :
    ((nest count f).outcome s).2.Covered book := by
  induction count generalizing f s with
  | zero => exact covered
  | succ count ih =>
      by_cases shallow : s.store.depth f + 1 < maxDepth
      · rw [outcome_nest_succ shallow]
        refine ih (covered.push ?_) _
        intro name value bound
        rw [Table.find?_empty] at bound
        cases bound
      · simpa [outcome, nest, openFrame, Store.depthUnder, shallow] using covered.record _

theorem Registry.eval_enters (present : f < s.store.size) (covered : s.Covered book)
    {expr : Value} (recorded : expr.Recorded book) :
    Enters book ((standard.eval f expr).outcome s).1 ((standard.eval f expr).outcome s).2 := by
  obtain ⟨outcome, s', ran, h⟩ := standard_outcome present expr
  rw [ran]
  exact h.enters recorded covered

theorem Registry.call_enters (present : f < s.store.size) (covered : s.Covered book)
    (params : List String) {body : Value} {args : List Value}
    (inside : body.Recorded book) (recorded : ∀ arg ∈ args, arg.Recorded book) :
    Enters book ((standard.call f params body args).outcome s).1
      ((standard.call f params body args).outcome s).2 := by
  obtain ran | ⟨_, ran⟩ | ⟨_, outcome, s', ran, h⟩ :=
    call_outcome standard_usesStandardForms standard_respectsFrames present params body args
  · rw [ran]
    exact .error covered
  · rw [ran]
    exact .error (covered.record _)
  · rw [ran]
    exact h.enters inside (covered.enter recorded f none params)

end Actions

end DynamicLisp
