import DynamicLisp.Proofs.Flat.Refinement

/-!
# Which names an evaluation looks up

Under dynamic scope a body may look up any name of its caller. Still, all the code that
runs is the text of the expression or the body of some closure, and of such code one can
tell which names it may look up. A name that neither the expression nor any closure
within reach looks up is overlooked by the evaluation, whatever it calls.
-/

namespace DynamicLisp

open Flat

namespace Value

mutual

/-- The names that may be looked up when an expression is evaluated, or when a closure
that it makes is called. -/
def reads : Value → List String
  | symbol name => [name]
  | list (head :: operands) =>
    match Keyword.ofHead? head with
    | some .quote => []
    | some .choose => readsOfAll operands
    | some .define | some .lambda =>
      match operands with
      | _ :: body :: _ => reads body
      | _ => []
    | none =>
      match head with
      | symbol name =>
        if Registry.standard.primitives.contains name then readsOfAll operands
        else name :: readsOfAll operands
      | closure _ _ body => reads body ++ readsOfAll operands
      | _ => []
  | _ => []
termination_by structural expr => expr

/-- The names that some of the expressions may look up. -/
def readsOfAll : List Value → List String
  | [] => []
  | expr :: exprs => reads expr ++ readsOfAll exprs
termination_by structural exprs => exprs

end

mutual

/-- The bodies of all closures that occur in a value, in lists and in bodies included. -/
def bodies : Value → List Value
  | list items => bodiesOfAll items
  | closure _ _ body => body :: bodies body
  | _ => []
termination_by structural value => value

/-- The bodies of all closures that occur in some of the values. -/
def bodiesOfAll : List Value → List Value
  | [] => []
  | value :: values => bodies value ++ bodiesOfAll values
termination_by structural values => values

end

/-- No closure that occurs in the value looks `hidden` up. -/
def ClosuresOverlook (hidden : String) (value : Value) : Prop :=
  ∀ body ∈ value.bodies, hidden ∉ body.reads

instance (hidden : String) (value : Value) : Decidable (value.ClosuresOverlook hidden) :=
  inferInstanceAs (Decidable (∀ body ∈ value.bodies, hidden ∉ body.reads))

/-- Neither the expression nor any closure that occurs in it looks `hidden` up. -/
structure Overlooks (hidden : String) (expr : Value) : Prop where
  unread : hidden ∉ expr.reads
  closures : expr.ClosuresOverlook hidden

theorem mem_readsOfAll {name : String} {exprs : List Value} :
    name ∈ readsOfAll exprs ↔ ∃ expr ∈ exprs, name ∈ expr.reads := by
  induction exprs with
  | nil => simp [readsOfAll]
  | cons expr exprs ih => simp [readsOfAll, ih]

theorem mem_bodiesOfAll {body : Value} {values : List Value} :
    body ∈ bodiesOfAll values ↔ ∃ value ∈ values, body ∈ value.bodies := by
  induction values with
  | nil => simp [bodiesOfAll]
  | cons value values ih => simp [bodiesOfAll, ih]

/-- The closures in a list are those in its items. -/
theorem forall_mem_bodies_list {property : Value → Prop} {items : List Value} :
    (∀ body ∈ (list items).bodies, property body) ↔
      ∀ item ∈ items, ∀ body ∈ item.bodies, property body := by
  simp only [bodies, mem_bodiesOfAll]
  constructor
  · intro every item member body inside
    exact every body ⟨item, member, inside⟩
  · rintro every body ⟨item, member, inside⟩
    exact every item member body inside

variable {hidden : String}

theorem closuresOverlook_list {items : List Value} :
    (list items).ClosuresOverlook hidden ↔ ∀ item ∈ items, item.ClosuresOverlook hidden :=
  forall_mem_bodies_list

theorem closuresOverlook_closure {id : ClosureId} {params : List String} {body : Value} :
    (closure id params body).ClosuresOverlook hidden ↔ body.Overlooks hidden := by
  simp only [ClosuresOverlook, bodies, List.forall_mem_cons]
  exact ⟨fun ⟨unread, closures⟩ => ⟨unread, closures⟩, fun h => ⟨h.unread, h.closures⟩⟩

section Equations

variable {head : Value}

theorem reads_choose (word : Keyword.ofHead? head = some .choose) (operands : List Value) :
    (list (head :: operands)).reads = readsOfAll operands := by
  rw [reads.eq_def]
  simp only [word]

/-- Definition and abstraction evaluate or keep their second operand. -/
theorem reads_second
    (word : Keyword.ofHead? head = some .define ∨ Keyword.ofHead? head = some .lambda)
    (first second : Value) : (list [head, first, second]).reads = second.reads := by
  rw [reads.eq_def]
  rcases word with word | word <;> simp only [word]

theorem reads_symbol {name : String} (noWord : Keyword.ofHead? (symbol name) = none)
    (operands : List Value) :
    (list (symbol name :: operands)).reads =
      if Registry.standard.primitives.contains name then readsOfAll operands
      else name :: readsOfAll operands := by
  rw [reads.eq_def]
  simp only [noWord]

theorem reads_closure (id : ClosureId) (params : List String) (body : Value)
    (operands : List Value) :
    (list (closure id params body :: operands)).reads = body.reads ++ readsOfAll operands := by
  rw [reads.eq_def]
  rfl

end Equations

namespace Overlooks

variable {head : Value} {operands : List Value}

/-- An operand whose names are looked up overlooks what the whole expression does. -/
theorem operand (overlooks : (list (head :: operands)).Overlooks hidden) {expr : Value}
    (member : expr ∈ operands) (reads : expr.reads ⊆ (list (head :: operands)).reads) :
    expr.Overlooks hidden := by
  refine ⟨fun inside => overlooks.unread (reads inside), ?_⟩
  exact closuresOverlook_list.mp overlooks.closures expr (List.mem_cons_of_mem _ member)

theorem each_operand (overlooks : (list (head :: operands)).Overlooks hidden)
    (reads : readsOfAll operands ⊆ (list (head :: operands)).reads) :
    ∀ expr ∈ operands, expr.Overlooks hidden := by
  intro expr member
  refine overlooks.operand member ?_
  intro name inside
  exact reads (mem_readsOfAll.mpr ⟨expr, member, inside⟩)

theorem symbol_ne {name : String} (overlooks : (symbol name).Overlooks hidden) : name ≠ hidden := by
  rintro rfl
  exact overlooks.unread (by simp [reads])

theorem choose (word : Keyword.ofHead? head = some .choose)
    (overlooks : (list (head :: operands)).Overlooks hidden) :
    ∀ expr ∈ operands, expr.Overlooks hidden := by
  refine overlooks.each_operand ?_
  rw [reads_choose word]
  exact List.Subset.refl _

theorem second {first second : Value}
    (word : Keyword.ofHead? head = some .define ∨ Keyword.ofHead? head = some .lambda)
    (overlooks : (list [head, first, second]).Overlooks hidden) : second.Overlooks hidden := by
  refine overlooks.operand (by simp) ?_
  rw [reads_second word]
  exact List.Subset.refl _

/-- Whatever is called with values, all its operands are evaluated. -/
theorem arguments {scope : Scope} {callee : Callee} (noWord : Keyword.ofHead? head = none)
    (found : scope.callee head = .ok callee)
    (overlooks : (list (head :: operands)).Overlooks hidden) :
    ∀ expr ∈ operands, expr.Overlooks hidden := by
  refine overlooks.each_operand ?_
  cases head with
  | symbol =>
      rw [reads_symbol noWord]
      split <;> simp
  | closure =>
      rw [reads_closure]
      simp
  | _ => cases found

/-- A head that is no keyword and no primitive is looked up. -/
theorem head_ne {name : String} (noWord : Keyword.ofHead? (symbol name) = none)
    (unregistered : Registry.standard.primitives.find? name = none)
    (overlooks : (list (symbol name :: operands)).Overlooks hidden) : name ≠ hidden := by
  rintro rfl
  apply overlooks.unread
  simp [reads_symbol noWord, Table.contains, unregistered]

/-- A closure at the head of a list is one that occurs there. -/
theorem body {id : ClosureId} {params : List String} {body : Value}
    (overlooks : (list (closure id params body :: operands)).Overlooks hidden) :
    body.Overlooks hidden :=
  closuresOverlook_closure.mp (closuresOverlook_list.mp overlooks.closures _ List.mem_cons_self)

end Overlooks

end Value

/-- Nothing that a task evaluates looks `hidden` up. -/
def Task.Overlooks (hidden : String) : Task → Prop
  | expr e => e.Overlooks hidden
  | operands exprs => ∀ expr ∈ exprs, expr.Overlooks hidden

/-- The body of a called closure does not look `hidden` up. -/
def Flat.Callee.Overlooks (hidden : String) : Callee → Prop
  | primitive .. => True
  | closure _ _ body => body.Overlooks hidden

end DynamicLisp
