import DynamicLisp.Proofs.Evaluation.Reads
import DynamicLisp.Proofs.Value.Alike

/-!
# What two evaluations hold at the same place

Two evaluations that overlook a name are followed at once. What they hold at the same
place are values that are alike, and whose closures do not look the name up either: that
is what keeps code which would look it up from entering through an argument or a list.
The primitives take such values to such values.
-/

namespace DynamicLisp

open Flat

variable {r : ClosureId → ClosureId → Prop} {hidden : String}

/-- What two evaluations that overlook `hidden` hold at the same place. -/
structure Value.Corresponds (r : ClosureId → ClosureId → Prop) (hidden : String)
    (value other : Value) : Prop where
  alike : value.Alike r other
  overlooks : value.ClosuresOverlook hidden

namespace Value.Corresponds

theorem bool (b : Bool) : Corresponds r hidden (.bool b) (.bool b) :=
  ⟨.bool b, by simp [ClosuresOverlook, bodies]⟩

theorem int (n : Integer) : Corresponds r hidden (.int n) (.int n) :=
  ⟨.int n, by simp [ClosuresOverlook, bodies]⟩

theorem symbol (name : String) : Corresponds r hidden (.symbol name) (.symbol name) :=
  ⟨.symbol name, by simp [ClosuresOverlook, bodies]⟩

theorem closure {id other : ClosureId} (related : r id other) (params : List String)
    {body : Value} (overlooks : body.Overlooks hidden) :
    Corresponds r hidden (.closure id params body) (.closure other params body) :=
  ⟨.closure related params body, closuresOverlook_closure.mpr overlooks⟩

theorem list_iff {items others : List Value} :
    Corresponds r hidden (.list items) (.list others) ↔
      List.Forall₂ (Corresponds r hidden) items others := by
  constructor
  · rintro ⟨alike, overlooks⟩
    rw [closuresOverlook_list] at overlooks
    cases alike with
    | list alike =>
        exact ((List.forall₂_and_left _ _).mpr ⟨overlooks, alike⟩).imp fun _ _ both =>
          ⟨both.2, both.1⟩
  · intro related
    have both : List.Forall₂
        (fun item other => item.ClosuresOverlook hidden ∧ item.Alike r other) items others :=
      related.imp fun _ _ both => ⟨both.overlooks, both.alike⟩
    obtain ⟨overlooks, alike⟩ := (List.forall₂_and_left _ _).mp both
    exact ⟨.list alike, closuresOverlook_list.mpr overlooks⟩

theorem exists_list {items : List Value} {other : Value}
    (related : Corresponds r hidden (.list items) other) :
    ∃ others, other = .list others ∧ List.Forall₂ (Corresponds r hidden) items others := by
  obtain ⟨others, rfl⟩ : ∃ others, other = .list others := by
    cases related.alike with
    | list => exact ⟨_, rfl⟩
  exact ⟨others, rfl, list_iff.mp related⟩

theorem rel_iff {seen seen' : Option Value} :
    Option.Rel (Corresponds r hidden) seen seen' ↔
      Option.Rel (Alike r) seen seen' ∧
        ∀ value, seen = some value → value.ClosuresOverlook hidden := by
  constructor
  · intro related
    cases related with
    | some related =>
        refine ⟨.some related.alike, ?_⟩
        rintro value ⟨⟩
        exact related.overlooks
    | none => exact ⟨.none, fun _ absent => nomatch absent⟩
  · rintro ⟨alike, overlooks⟩
    cases alike with
    | some alike => exact .some ⟨alike, overlooks _ rfl⟩
    | none => exact .none

end Value.Corresponds

section Primitives

open Value

variable {args others : List Value}

/-- Corresponding arguments give corresponding results, wherever the calls are made. -/
def Primitive.Parametric (r : ClosureId → ClosureId → Prop) (hidden : String)
    (primitive : Primitive) : Prop :=
  ∀ f g args others s t, List.Forall₂ (Corresponds r hidden) args others →
    ResultsAlike r (Corresponds r hidden) ((primitive.run f args).outcome s).1
      ((primitive.run g others).outcome t).1

theorem Lists.car_corresponds {value other : Value} (related : Corresponds r hidden value other) :
    ResultsAlike r (Corresponds r hidden) (car value) (car other) := by
  cases related.alike with
  | list =>
      cases Corresponds.list_iff.mp related with
      | nil => exact .error (.same _)
      | cons first => exact .ok first
  | _ => exact .error (.type (.notList "car" related.alike))

theorem Lists.cdr_corresponds {value other : Value} (related : Corresponds r hidden value other) :
    ResultsAlike r (Corresponds r hidden) (cdr value) (cdr other) := by
  cases related.alike with
  | list =>
      cases Corresponds.list_iff.mp related with
      | nil => exact .error (.same _)
      | cons _ rest =>
          cases rest with
          | nil => exact .ok ⟨.nil, by simp [ClosuresOverlook, bodies]⟩
          | cons second rest => exact .ok (Corresponds.list_iff.mpr (.cons second rest))
  | _ => exact .error (.type (.notList "cdr" related.alike))

theorem Lists.cons_corresponds {item item' tail tail' : Value}
    (first : Corresponds r hidden item item') (rest : Corresponds r hidden tail tail') :
    ResultsAlike r (Corresponds r hidden) (cons item tail) (cons item' tail') := by
  cases rest.alike with
  | nil => exact .ok (Corresponds.list_iff.mpr (.cons first .nil))
  | list => exact .ok (Corresponds.list_iff.mpr (.cons first (Corresponds.list_iff.mp rest)))
  | _ => exact .error (.type (.notListTail rest.alike))

theorem Comparison.chainFrom_eq (related : Integer → Integer → Bool) (previous : Integer)
    (alike : List.Forall₂ (Alike r) args others) :
    chainFrom related previous args = chainFrom related previous others := by
  induction alike generalizing previous with
  | nil => rfl
  | cons first _ ih =>
      cases first with
      | int n => rw [chainFrom, chainFrom, ih]
      | _ => rfl

theorem Comparison.chain_eq (related : Integer → Integer → Bool)
    (alike : List.Forall₂ (Alike r) args others) :
    chain related args = chain related others := by
  cases alike with
  | nil => rfl
  | cons first rest =>
      cases first with
      | int n => exact chainFrom_eq related n rest
      | _ => rfl

theorem Primitive.integers_alike (alike : List.Forall₂ (Alike r) args others) :
    ResultsAlike r Eq (integers args) (integers others) := by
  induction alike with
  | nil => exact .ok rfl
  | cons first _ ih =>
      have fault := Error.Alike.type (.notInteger first)
      cases first with
      | int n =>
          rw [integers, integers]
          exact ih.map fun _ _ same => congrArg (n :: ·) same
      | _ => exact .error fault

theorem Arithmetic.fold_corresponds (operation : String) (combine : Int → Int → Int)
    (start : Integer) (ns : List Integer) :
    ResultsAlike r (Corresponds r hidden) (fold operation combine start ns)
      (fold operation combine start ns) := by
  induction ns generalizing start with
  | nil => exact .ok (.int start)
  | cons n ns ih =>
      rw [fold]
      split
      · exact ih _
      · exact .error (.same _)

namespace Primitive

theorem parametric_ofFunction_one {function : Value → Except Error Value}
    (parametric : ∀ value other, Corresponds r hidden value other →
      ResultsAlike r (Corresponds r hidden) (function value) (function other)) :
    (ofFunction [.value] function).Parametric r hidden := by
  intro f g args others s t related
  rw [outcome_run_ofFunction_one, outcome_run_ofFunction_one, related.length_eq]
  cases related with
  | nil => exact .error (.same _)
  | cons first rest =>
      cases rest with
      | nil => exact parametric _ _ first
      | cons => exact .error (.same _)

theorem parametric_ofFunction_two {function : Value → Value → Except Error Value}
    (parametric : ∀ first first' second second', Corresponds r hidden first first' →
      Corresponds r hidden second second' →
      ResultsAlike r (Corresponds r hidden) (function first second) (function first' second')) :
    (ofFunction [.value, .value] function).Parametric r hidden := by
  intro f g args others s t related
  rw [outcome_run_ofFunction_two, outcome_run_ofFunction_two, related.length_eq]
  cases related with
  | nil => exact .error (.same _)
  | cons first rest =>
      cases rest with
      | nil => exact .error (.same _)
      | cons second rest =>
          cases rest with
          | nil => exact parametric _ _ _ _ first second
          | cons => exact .error (.same _)

theorem parametric_comparison (relation : Comparison.Relation) :
    (comparison relation).Parametric r hidden := by
  intro f g args others s t related
  have same : Comparison.compare relation args = Comparison.compare relation others :=
    congrArg Value.bool
      (Comparison.chain_eq relation.holds (related.imp fun _ _ both => both.alike))
  rw [comparison, outcome_run_ofValues, outcome_run_ofValues, same]
  exact .ok (.bool _)

theorem parametric_ofIntegers {function : List Integer → Except Error Value}
    (parametric : ∀ ns,
      ResultsAlike r (Corresponds r hidden) (function ns) (function ns)) :
    (ofIntegers .any function).Parametric r hidden := by
  intro f g args others s t related
  have converted := integers_alike (related.imp fun _ _ both => both.alike)
  rw [outcome_run_ofIntegers, outcome_run_ofIntegers]
  generalize integers args = first, integers others = second at converted
  cases converted with
  | ok same => exact same ▸ parametric _
  | error alike => exact .error alike

/-- No standard primitive looks at the identity of a closure, and what it returns comes
from its arguments. -/
theorem parametric_of_find? {name : String} {primitive : Primitive}
    (found : Registry.standard.primitives.find? name = some primitive) :
    primitive.Parametric r hidden := by
  refine forall_standard (parametric_ofFunction_one ?_) (parametric_ofFunction_one ?_)
    (parametric_ofFunction_two ?_) parametric_comparison (parametric_ofIntegers ?_)
    (parametric_ofIntegers ?_) (parametric_ofIntegers ?_) found
  · exact fun _ _ => Lists.car_corresponds
  · exact fun _ _ => Lists.cdr_corresponds
  · exact fun _ _ _ _ => Lists.cons_corresponds
  · exact Arithmetic.fold_corresponds _ _ _
  · intro ns
    cases ns with
    | nil => exact .ok (.int 0)
    | cons n ns => exact Arithmetic.fold_corresponds _ _ n ns
  · exact Arithmetic.fold_corresponds _ _ _

theorem runChecked_corresponds {name : String} {primitive : Primitive}
    (found : Registry.standard.primitives.find? name = some primitive) (f g : FrameId)
    (s t : State) (related : List.Forall₂ (Corresponds r hidden) args others) :
    ResultsAlike r (Corresponds r hidden) ((primitive.runChecked f args).outcome s).1
      ((primitive.runChecked g others).outcome t).1 := by
  rw [outcome_runChecked, outcome_runChecked, related.length_eq]
  split
  · exact parametric_of_find? found f g args others s t related
  · exact .error (.same _)

end Primitive

end Primitives

end DynamicLisp
