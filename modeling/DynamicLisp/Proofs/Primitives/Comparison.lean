import DynamicLisp.Proofs.Evaluation.Operators

/-!
# Comparisons of every pair

A comparison looks at neighbours only and stops at the first pair that fails it or the
first value that is no integer. All five relations are transitive, so it is true exactly
when the values are integers and every one of them stands in the relation to every later
one. What follows from that no longer depends on the loop: reversal exchanges a relation
with its converse, and equality does not depend on the order of the values.
-/

namespace DynamicLisp

namespace Comparison

namespace Relation

/-- The name under which programs find the comparison. -/
def name : Relation → String
  | eq => "="
  | lt => "<"
  | gt => ">"
  | le => "<="
  | ge => ">="

/-- What a relation says of the numbers that two integers stand for. -/
def Means : Relation → Int → Int → Prop
  | eq, m, n => m = n
  | lt, m, n => m < n
  | gt, m, n => m > n
  | le, m, n => m ≤ n
  | ge, m, n => m ≥ n

/-- The relation that holds from right to left. -/
def converse : Relation → Relation
  | eq => eq
  | lt => gt
  | gt => lt
  | le => ge
  | ge => le

/-- If two values are integers, they stand in the relation. -/
def Orders (relation : Relation) (first second : Value) : Prop :=
  ∀ m n, first = .int m → second = .int n → relation.Means m.toInt n.toInt

variable {relation : Relation}

theorem holds_iff {m n : Integer} :
    relation.holds m n = true ↔ relation.Means m.toInt n.toInt := by
  cases relation with
  | eq => simp [holds, Means, Int64.toInt_inj]
  | lt | gt => simp [holds, Means, Int64.lt_iff_toInt_lt]
  | le | ge => simp [holds, Means, Int64.le_iff_toInt_le]

theorem Means.trans {k m n : Int} (first : relation.Means k m) (second : relation.Means m n) :
    relation.Means k n := by
  cases relation with
  | eq => exact Eq.trans first second
  | lt => exact Int.lt_trans first second
  | gt => exact Int.lt_trans second first
  | le => exact Int.le_trans first second
  | ge => exact Int.le_trans second first

theorem means_converse {m n : Int} : relation.converse.Means m n ↔ relation.Means n m := by
  cases relation with
  | eq => exact eq_comm
  | lt | gt | le | ge => exact Iff.rfl

theorem orders_int {m n : Integer} :
    relation.Orders (.int m) (.int n) ↔ relation.Means m.toInt n.toInt := by
  constructor
  · intro orders
    exact orders m n rfl rfl
  · rintro means _ _ ⟨⟩ ⟨⟩
    exact means

theorem orders_converse {first second : Value} :
    relation.converse.Orders first second ↔ relation.Orders second first := by
  constructor
  · intro orders m n left right
    exact means_converse.mp (orders n m right left)
  · intro orders m n left right
    exact means_converse.mpr (orders n m right left)

/-- The order of every pair, said of positions. -/
theorem pairwise_orders_iff {args : List Value} :
    args.Pairwise relation.Orders ↔
      ∀ (i j : Nat) (m n : Integer), i < j → args[i]? = some (.int m) →
        args[j]? = some (.int n) → relation.Means m.toInt n.toInt := by
  rw [List.pairwise_iff_getElem]
  constructor
  · intro orders i j m n before first second
    obtain ⟨left, one⟩ := List.getElem?_eq_some_iff.mp first
    obtain ⟨right, two⟩ := List.getElem?_eq_some_iff.mp second
    exact orders i j left right before m n one two
  · intro means i j left right before m n one two
    exact means i j m n before (List.getElem?_eq_some_iff.mpr ⟨left, one⟩)
      (List.getElem?_eq_some_iff.mpr ⟨right, two⟩)

end Relation

variable {relation : Relation}

/-- What is compared with its neighbour is, by transitivity, compared with everything
that follows. -/
theorem chainFrom_iff {previous : Integer} {args : List Value} :
    chainFrom relation.holds previous args = true ↔
      (∀ arg ∈ args, ∃ n, arg = .int n) ∧
        (Value.int previous :: args).Pairwise relation.Orders := by
  induction args generalizing previous with
  | nil => simp [chainFrom]
  | cons arg args ih =>
      cases arg with
      | int n =>
          rw [chainFrom, Bool.and_eq_true, Relation.holds_iff, ih]
          constructor
          · rintro ⟨means, integers, pairs⟩
            refine ⟨List.forall_mem_cons.mpr ⟨⟨n, rfl⟩, integers⟩,
              List.pairwise_cons.mpr ⟨?_, pairs⟩⟩
            refine List.forall_mem_cons.mpr ⟨Relation.orders_int.mpr means, ?_⟩
            intro arg member
            obtain ⟨k, rfl⟩ := integers arg member
            have next := (List.pairwise_cons.mp pairs).1 _ member
            exact Relation.orders_int.mpr (means.trans (Relation.orders_int.mp next))
          · rintro ⟨integers, pairs⟩
            obtain ⟨first, later⟩ := List.pairwise_cons.mp pairs
            exact ⟨Relation.orders_int.mp (first _ List.mem_cons_self),
              (List.forall_mem_cons.mp integers).2, later⟩
      | _ => simp [chainFrom]

/-- A comparison is true exactly when all values are integers and every pair of them
stands in the relation. -/
theorem chain_iff {args : List Value} :
    chain relation.holds args = true ↔
      (∀ arg ∈ args, ∃ n, arg = .int n) ∧ args.Pairwise relation.Orders := by
  cases args with
  | nil => simp [chain]
  | cons arg args =>
      cases arg with
      | int n => simp [chain, chainFrom_iff]
      | _ => simp [chain]

theorem chain_reverse (relation : Relation) (args : List Value) :
    chain relation.holds args.reverse = chain relation.converse.holds args := by
  rw [Bool.eq_iff_iff, chain_iff, chain_iff, List.pairwise_reverse]
  simp only [List.mem_reverse]
  rw [List.Pairwise.iff fun first second => Relation.orders_converse]

theorem chain_eq_perm {args others : List Value} (same : args.Perm others) :
    chain Relation.eq.holds args = chain Relation.eq.holds others := by
  have symmetric : ∀ {first second : Value}, Relation.eq.Orders first second →
      Relation.eq.Orders second first := fun orders => Relation.orders_converse.mp orders
  rw [Bool.eq_iff_iff, chain_iff, chain_iff, same.pairwise_iff symmetric]
  simp only [same.mem_iff]

/-- Equality is being at most and at least the other. -/
theorem chain_eq_iff {args : List Value} :
    chain Relation.eq.holds args = true ↔
      chain Relation.le.holds args = true ∧ chain Relation.ge.holds args = true := by
  have antisymmetric : ∀ first second : Value, Relation.eq.Orders first second ↔
      Relation.le.Orders first second ∧ Relation.ge.Orders first second := by
    intro first second
    constructor
    · intro orders
      exact ⟨fun m n left right => Int.le_of_eq (orders m n left right),
        fun m n left right => Int.le_of_eq (orders m n left right).symm⟩
    · rintro ⟨le, ge⟩ m n left right
      exact Int.le_antisymm (le m n left right) (ge m n left right)
  rw [chain_iff, chain_iff, chain_iff, List.Pairwise.iff antisymmetric, List.pairwise_and_iff]
  constructor
  · rintro ⟨integers, le, ge⟩
    exact ⟨⟨integers, le⟩, integers, ge⟩
  · rintro ⟨⟨integers, le⟩, _, ge⟩
    exact ⟨integers, le, ge⟩

end Comparison

namespace Primitive

open Comparison

/-- The standard registry holds the comparison under its name. -/
theorem find?_comparison (relation : Relation) :
    Registry.standard.primitives.find? relation.name = some (comparison relation) := by
  cases relation <;> rfl

theorem runChecked_comparison (relation : Relation) (f : FrameId) {args : List Value}
    (count : 2 ≤ args.length) :
    (comparison relation).runChecked f args = pure (.bool (chain relation.holds args)) := by
  have admitted : (comparison relation).arity.admits args.length = true := decide_eq_true count
  rw [runChecked, Arity.check, if_pos admitted]
  rfl

theorem runChecked_comparison_wrongCount (relation : Relation) (f : FrameId)
    {args : List Value} (count : args.length < 2) :
    (comparison relation).runChecked f args =
      throw (.arity (.atLeast 2) args.length none) := by
  have rejected : ¬ (comparison relation).arity.admits args.length = true := by
    intro admitted
    exact absurd (of_decide_eq_true admitted) (Nat.not_le.mpr count)
  rw [runChecked, Arity.check, if_neg rejected]
  rfl

end Primitive

/-- Too few operands of a comparison are evaluated before they are counted. -/
theorem Registry.outcome_eval_comparison_wrongCount (relation : Comparison.Relation)
    {f : FrameId} {exprs : List Value} {s : State} (few : exprs.length < 2) :
    (standard.eval f (.list (.symbol relation.name :: exprs))).outcome s =
      match (standard.evalAll f exprs).outcome s with
      | (.ok _, s') => (.error (.arity (.atLeast 2) exprs.length (some relation.name)), s')
      | (.error error, s') => (.error error, s') := by
  have noForm : standard.forms.find? relation.name = none := by
    cases relation <;> rfl
  rw [outcome_eval_primitive noForm (Primitive.find?_comparison relation)]
  cases evaluated : (standard.evalAll f exprs).outcome s with
  | mk result s' =>
      cases result with
      | error error => rfl
      | ok args =>
          have length : args.length = exprs.length :=
            (Operand.length_of_evalAll evaluated).trans (length_operands _ _ _)
          simp only [Primitive.runChecked_comparison_wrongCount relation _ (length ▸ few)]
          rw [length]
          rfl

open Comparison in
/-- The comparisons of the standard registry compare every pair. On at least two values they
give a boolean, which is true exactly when all values are integers and the ones at any two
positions stand in the relation. So reversing the values exchanges a relation with its
converse, equality does not depend on their order, and for integers it is being both at
most and at least. With fewer than two operands the evaluator evaluates them and then
reports that it expected at least two. -/
theorem comparison_all_pairs :
    (∀ relation : Relation,
      Registry.standard.primitives.find? relation.name = some (.comparison relation)) ∧
    (∀ (relation : Relation) f (args : List Value), 2 ≤ args.length →
      (∃ b, (∀ s, ((Primitive.comparison relation).runChecked f args).outcome s =
          (.ok (.bool b), s)) ∧
        (b = true ↔ (∀ arg ∈ args, ∃ n, arg = .int n) ∧
          ∀ (i j : Nat) (m n : Integer), i < j → args[i]? = some (.int m) →
            args[j]? = some (.int n) → relation.Means m.toInt n.toInt)) ∧
      (Primitive.comparison relation).runChecked f args.reverse =
        (Primitive.comparison relation.converse).runChecked f args) ∧
    (∀ f (args others : List Value), args.Perm others →
      (Primitive.comparison .eq).runChecked f args =
        (Primitive.comparison .eq).runChecked f others) ∧
    (∀ f (args : List Value) s, 2 ≤ args.length → (∀ arg ∈ args, ∃ n, arg = .int n) →
      (((Primitive.comparison .eq).runChecked f args).outcome s = (.ok (.bool true), s) ↔
        ((Primitive.comparison .le).runChecked f args).outcome s = (.ok (.bool true), s) ∧
          ((Primitive.comparison .ge).runChecked f args).outcome s = (.ok (.bool true), s))) ∧
    ∀ (relation : Relation) f (exprs : List Value) s, exprs.length < 2 →
      (Registry.standard.eval f (.list (.symbol relation.name :: exprs))).outcome s =
        match (Registry.standard.evalAll f exprs).outcome s with
        | (.ok _, s') =>
          (.error (.arity (.atLeast 2) exprs.length (some relation.name)), s')
        | (.error error, s') => (.error error, s') := by
  refine ⟨Primitive.find?_comparison, ?_, ?_, ?_, ?_⟩
  · intro relation f args count
    have turned : 2 ≤ args.reverse.length := by rwa [List.length_reverse]
    rw [Primitive.runChecked_comparison relation f count,
      Primitive.runChecked_comparison relation f turned,
      Primitive.runChecked_comparison relation.converse f count, chain_reverse]
    refine ⟨⟨_, fun s => rfl, ?_⟩, rfl⟩
    rw [chain_iff, Relation.pairwise_orders_iff]
  · intro f args others same
    by_cases count : 2 ≤ args.length
    · rw [Primitive.runChecked_comparison .eq f count,
        Primitive.runChecked_comparison .eq f (same.length_eq ▸ count), chain_eq_perm same]
    · have few := Nat.not_le.mp count
      rw [Primitive.runChecked_comparison_wrongCount .eq f few,
        Primitive.runChecked_comparison_wrongCount .eq f (same.length_eq ▸ few),
        same.length_eq]
  · intro f args s count _
    rw [Primitive.runChecked_comparison .eq f count,
      Primitive.runChecked_comparison .le f count,
      Primitive.runChecked_comparison .ge f count]
    simp only [Eval.outcome_pure, Prod.mk.injEq, Except.ok.injEq, Value.bool.injEq, and_true]
    exact chain_eq_iff
  · intro relation f exprs s few
    exact Registry.outcome_eval_comparison_wrongCount relation few

/-- Numbers that fall one after the other rise when they are read from the end. A value of
another kind makes a comparison false without an error. A single operand is too few, unless
its own evaluation fails before. -/
theorem comparison_all_pairs_falling :
    (∀ f, (Primitive.comparison .lt).runChecked f [.int 1, .int 2, .int 3] =
      (Primitive.comparison .gt).runChecked f [.int 3, .int 2, .int 1]) ∧
    (∀ f s, ((Primitive.comparison .le).runChecked f [.int 1, .int 2, .nil]).outcome s =
      (.ok (.bool false), s)) ∧
    (Registry.standard.eval 0 (.list [.symbol "<", .int 1])).outcome .initial =
      (.error (.arity (.atLeast 2) 1 (some "<")), .initial) ∧
    (Registry.standard.eval 0 (.list [.symbol "<", .list [.int 1]])).outcome .initial =
      (.error (.call (.int 1)), .initial) := by
  obtain ⟨_, compares, _, _, few⟩ := comparison_all_pairs
  refine ⟨fun f => ?_, fun f s => ?_, ?_, ?_⟩
  · exact (compares .lt f [.int 3, .int 2, .int 1] (by decide)).2
  · obtain ⟨⟨b, result, true_iff⟩, _⟩ := compares .le f [.int 1, .int 2, .nil] (by decide)
    have mixed : ¬ b = true := by
      intro holds
      obtain ⟨n, same⟩ := (true_iff.mp holds).1 .nil (by simp)
      cases same
    rw [result, Bool.eq_false_iff.mpr mixed]
  · exact few .lt 0 [.int 1] .initial (by decide)
  · exact few .lt 0 [.list [.int 1]] .initial (by decide)

end DynamicLisp
