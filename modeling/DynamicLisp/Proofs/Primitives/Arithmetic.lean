import DynamicLisp.Proofs.StandardRegistry

/-!
# Arithmetic is exact or refused

Each partial result of a sum, a difference or a product is computed exactly and has
to have a 64-bit form. So the operation gives the exact result when all of the exact
partial results are in range and overflows when one of them is not, wherever the exact
result itself lies.

That the arguments are integers is settled before anything is added up: the first one
of another kind is at fault, and after that reading an argument cannot fail.
-/

namespace DynamicLisp

namespace Integer

theorem inRange_toInt (word : Integer) : InRange word.toInt := by
  have low := Int64.le_toInt word
  have high := Int64.toInt_lt word
  exact ⟨by omega, by omega⟩

/-- An integer in range has a 64-bit form that stands for it. -/
theorem exists_ofInt? {n : Int} (range : InRange n) :
    ∃ word, ofInt? n = some word ∧ word.toInt = n := by
  have form : ofInt? n = some (Int64.ofInt n) := if_pos range
  exact ⟨_, form, ofInt?_eq_some_iff.mp form⟩

end Integer

namespace Arithmetic

open Integer

variable {operation : String} {combine : Int → Int → Int} {start : Integer} {ns : List Integer}

/-- If all exact partial results are in range, the last of them is the result. -/
theorem fold_exact
    (range : ∀ exact ∈ (ns.map Int64.toInt).scanl combine start.toInt, InRange exact) :
    ∃ n, fold operation combine start ns = .ok (.int n) ∧
      n.toInt = (ns.map Int64.toInt).foldl combine start.toInt := by
  induction ns generalizing start with
  | nil => exact ⟨start, rfl, rfl⟩
  | cons n ns ih =>
      rw [List.map_cons, List.scanl_cons, List.forall_mem_cons] at range
      obtain ⟨_, later⟩ := range
      obtain ⟨next, form, stands⟩ : ∃ next, ofInt? (combine start.toInt n.toInt) = some next ∧
          next.toInt = combine start.toInt n.toInt :=
        exists_ofInt? (later _ (by cases ns <;> simp))
      rw [← stands] at later
      obtain ⟨result, folded, exact⟩ := ih later
      refine ⟨result, ?_, ?_⟩
      · rw [fold, form]
        exact folded
      · rw [exact, stands, List.map_cons, List.foldl_cons]

/-- An exact partial result out of range makes the operation fail, whatever would come
after it. -/
theorem fold_overflow {exact : Int}
    (reached : exact ∈ (ns.map Int64.toInt).scanl combine start.toInt)
    (outside : ¬ InRange exact) :
    fold operation combine start ns = .error (.eval (.overflow operation)) := by
  induction ns generalizing start with
  | nil =>
      obtain rfl : exact = start.toInt := by simpa using reached
      exact absurd (inRange_toInt start) outside
  | cons n ns ih =>
      rw [List.map_cons, List.scanl_cons, List.mem_cons] at reached
      obtain rfl | later := reached
      · exact absurd (inRange_toInt start) outside
      · rw [fold]
        cases form : ofInt? (combine start.toInt n.toInt) with
        | none => rfl
        | some next =>
            rw [← ofInt?_eq_some_iff.mp form] at later
            exact ih later

/-- The operations on any number of integers. -/
inductive Calculation where
  | sum
  | difference
  | product

namespace Calculation

/-- The name under which programs find the operation. -/
def name : Calculation → String
  | sum => "+"
  | difference => "-"
  | product => "*"

/-- How an overflow speaks of the operation. -/
def word : Calculation → String
  | sum => "addition"
  | difference => "subtraction"
  | product => "multiplication"

/-- The operation on integers of 64 bits. -/
def run : Calculation → List Integer → Except Error Value
  | sum => add
  | difference => subtract
  | product => multiply

/-- The exact result. -/
def exact : Calculation → List Int → Int
  | sum, ns => ns.foldl (· + ·) 0
  | difference, [] => 0
  | difference, n :: ns => ns.foldl (· - ·) n
  | product, ns => ns.foldl (· * ·) 1

/-- The exact partial results from left to right, of which the exact result is the
last. -/
def partials : Calculation → List Int → List Int
  | sum, ns => ns.scanl (· + ·) 0
  | difference, [] => [0]
  | difference, n :: ns => ns.scanl (· - ·) n
  | product, ns => ns.scanl (· * ·) 1

theorem run_exact (c : Calculation)
    (range : ∀ exact ∈ c.partials (ns.map Int64.toInt), InRange exact) :
    ∃ n, c.run ns = .ok (.int n) ∧ n.toInt = c.exact (ns.map Int64.toInt) := by
  cases c with
  | sum => exact fold_exact range
  | difference =>
      cases ns with
      | nil => exact ⟨0, rfl, rfl⟩
      | cons n ns => exact fold_exact range
  | product => exact fold_exact range

theorem run_overflow (c : Calculation) {exact : Int}
    (reached : exact ∈ c.partials (ns.map Int64.toInt)) (outside : ¬ InRange exact) :
    c.run ns = .error (.eval (.overflow c.word)) := by
  cases c with
  | sum => exact fold_overflow reached outside
  | difference =>
      cases ns with
      | nil =>
          obtain rfl : exact = 0 := by simpa [partials] using reached
          exact absurd (by decide) outside
      | cons n ns => exact fold_overflow reached outside
  | product => exact fold_overflow reached outside

theorem run_exact_iff (c : Calculation) :
    (∃ n, c.run ns = .ok (.int n) ∧ n.toInt = c.exact (ns.map Int64.toInt)) ↔
      ∀ exact ∈ c.partials (ns.map Int64.toInt), InRange exact := by
  constructor
  · rintro ⟨n, result, _⟩ exact reached
    refine Decidable.byContradiction fun outside => ?_
    rw [c.run_overflow reached outside] at result
    cases result
  · exact c.run_exact

theorem run_overflow_iff (c : Calculation) :
    c.run ns = .error (.eval (.overflow c.word)) ↔
      ∃ exact ∈ c.partials (ns.map Int64.toInt), ¬ InRange exact := by
  constructor
  · intro failed
    refine Decidable.byContradiction fun inside => ?_
    have range : ∀ exact ∈ c.partials (ns.map Int64.toInt), InRange exact :=
      fun exact reached => Decidable.byContradiction fun outside =>
        inside ⟨exact, reached, outside⟩
    obtain ⟨n, result, _⟩ := c.run_exact range
    rw [result] at failed
    cases failed
  · rintro ⟨exact, reached, outside⟩
    exact c.run_overflow reached outside

/-- The standard registry holds the operation under its name. -/
theorem find?_standard (c : Calculation) :
    Registry.standard.primitives.find? c.name = some (.ofIntegers .any c.run) := by
  cases c <;> rfl

end Calculation

end Arithmetic

/-- Reads an argument as an integer. In a value of another kind there is none to read. -/
def Value.integer? : Value → Option Integer
  | .int n => some n
  | _ => none

namespace Primitive

/-- The arguments read one after the other, after all of them were checked and the first
that is no integer was found at fault. -/
def readChecked (args : List Value) : Except Error (List (Option Integer)) :=
  match args.find? fun arg => arg.integer?.isNone with
  | some got => .error (.type (.notInteger got))
  | none => .ok (args.map Value.integer?)

@[simp] theorem integers_map_int (ns : List Integer) : integers (ns.map .int) = .ok ns := by
  induction ns with
  | nil => rfl
  | cons n ns ih =>
      rw [List.map_cons, integers, ih]
      rfl

theorem integers_of_find?_some {args : List Value} {got : Value}
    (found : args.find? (fun arg => arg.integer?.isNone) = some got) :
    integers args = .error (.type (.notInteger got)) := by
  induction args with
  | nil => cases found
  | cons arg args ih =>
      cases arg with
      | int n =>
          rw [integers, ih found]
          rfl
      | _ =>
          cases found
          rfl

theorem eq_map_int_of_find?_none {args : List Value}
    (passed : args.find? (fun arg => arg.integer?.isNone) = none) :
    ∃ ns : List Integer, args = ns.map .int := by
  induction args with
  | nil => exact ⟨[], rfl⟩
  | cons arg args ih =>
      cases arg with
      | int n =>
          obtain ⟨ns, rfl⟩ := ih passed
          exact ⟨n :: ns, rfl⟩
      | _ => cases passed

/-- Checking first and reading afterwards gives the integers that an operation on
integers receives. No argument that is read comes up empty. -/
theorem readChecked_eq (args : List Value) :
    readChecked args = (integers args).map (List.map some) := by
  rw [readChecked]
  cases found : args.find? (fun arg => arg.integer?.isNone) with
  | some got => rw [integers_of_find?_some found]; rfl
  | none =>
      obtain ⟨ns, rfl⟩ := eq_map_int_of_find?_none found
      rw [integers_map_int, List.map_map]
      rfl

end Primitive

open Arithmetic in
/-- Sums, differences and products of any arguments, as the standard registry has them.
They leave the state as it is. If some argument is no integer, the first such argument is
at fault, whatever the arguments before it add up to. Otherwise the result is the exact one
if and only if all exact partial results from left to right are in range, and an overflow if
and only if one of them is not. After the check of the arguments, reading them never
fails. -/
theorem arithmetic_exact_or_refused (c : Calculation) :
    ∃ primitive, Registry.standard.primitives.find? c.name = some primitive ∧
      ∀ f args s, primitive.runChecked f args = primitive.run f args ∧
        Primitive.readChecked args = (Primitive.integers args).map (List.map some) ∧
        (∀ got, args.find? (fun arg => arg.integer?.isNone) = some got →
          (primitive.run f args).outcome s = (.error (.type (.notInteger got)), s)) ∧
        (args.find? (fun arg => arg.integer?.isNone) = none →
          ∃ ns : List Integer, args = ns.map .int ∧
            ((∃ n, (primitive.run f args).outcome s = (.ok (.int n), s) ∧
                n.toInt = c.exact (ns.map Int64.toInt)) ↔
              ∀ exact ∈ c.partials (ns.map Int64.toInt), Integer.InRange exact) ∧
            ((primitive.run f args).outcome s = (.error (.eval (.overflow c.word)), s) ↔
              ∃ exact ∈ c.partials (ns.map Int64.toInt), ¬ Integer.InRange exact)) := by
  refine ⟨_, c.find?_standard, fun f args s => ⟨rfl, Primitive.readChecked_eq args, ?_, ?_⟩⟩
  · intro got found
    rw [Primitive.outcome_run_ofIntegers, Primitive.integers_of_find?_some found]
    rfl
  · intro passed
    obtain ⟨ns, rfl⟩ := Primitive.eq_map_int_of_find?_none passed
    have ran : ((Primitive.ofIntegers .any c.run).run f (ns.map .int)).outcome s =
        (c.run ns, s) := by
      rw [Primitive.outcome_run_ofIntegers, Primitive.integers_map_int]
      rfl
    simp only [ran, Prod.mk.injEq, and_true]
    exact ⟨ns, rfl, c.run_exact_iff, c.run_overflow_iff⟩

/-- A sum that leaves the range overflows although its exact result is in range, and in
another order of the same arguments it does not. An argument of another kind is at fault
even where the integers before it overflow. -/
theorem arithmetic_exact_or_refused_detour :
    ∃ primitive, Registry.standard.primitives.find? "+" = some primitive ∧ ∀ f s,
      (primitive.run f [.int 9223372036854775807, .int 1, .int (-1)]).outcome s =
        (.error (.eval (.overflow "addition")), s) ∧
      (∃ n, (primitive.run f [.int 9223372036854775807, .int (-1), .int 1]).outcome s =
          (.ok (.int n), s) ∧
        n.toInt = 9223372036854775807) ∧
      (primitive.run f [.int 9223372036854775807, .int 1, .nil]).outcome s =
        (.error (.type (.notInteger .nil)), s) := by
  obtain ⟨primitive, found, law⟩ := arithmetic_exact_or_refused .sum
  have ints_injective : ∀ {ms ns : List Integer},
      ms.map Value.int = ns.map Value.int → ns = ms :=
    fun same => (List.map_inj_right fun _ _ => Value.int.inj).mp same.symm
  refine ⟨primitive, found, fun f s => ⟨?_, ?_, ?_⟩⟩
  · obtain ⟨_, _, _, integers⟩ := law f [.int 9223372036854775807, .int 1, .int (-1)] s
    obtain ⟨ns, same, _, overflow⟩ := integers rfl
    obtain rfl : ns = [9223372036854775807, 1, -1] := ints_injective same
    exact overflow.mpr ⟨9223372036854775808, by decide, by decide⟩
  · obtain ⟨_, _, _, integers⟩ := law f [.int 9223372036854775807, .int (-1), .int 1] s
    obtain ⟨ns, same, result, _⟩ := integers rfl
    obtain rfl : ns = [9223372036854775807, -1, 1] := ints_injective same
    exact result.mpr (by decide)
  · obtain ⟨_, _, refused, _⟩ := law f [.int 9223372036854775807, .int 1, .nil] s
    exact refused .nil rfl

end DynamicLisp
