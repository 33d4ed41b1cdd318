import DynamicLisp.Proofs.Store.Listing
import DynamicLisp.Repl
import Mathlib.Data.List.Forall2

/-!
# The listing of the interactive loop

The answer to `:env` shows the bindings that can be seen, each of them on a line of its
own. Closures stand under one title and all other values under another, so a name is
shown once, and where it is shown tells whether it is bound to a closure.
-/

namespace DynamicLisp

namespace Repl

/-- How a binding is shown: a closure with its parameters, any other value with its
text. -/
inductive ShownAs : String × Value → String → Prop where
  | function {name id params body} :
      ShownAs (name, .closure id params body) ("  (" ++ " ".intercalate (name :: params) ++ ")")
  | value {name value} (plain : value.isClosure = false) :
      ShownAs (name, value) ("  " ++ name ++ " = " ++ value.text)

/-- A scope divided into the bindings of closures and those of other values, without a
name that occurs twice. -/
structure Divides (env : Environment) (functions values : List (String × Value)) : Prop where
  functions_iff : ∀ name value, (name, value) ∈ functions ↔
    env.get? name = some value ∧ value.isClosure = true
  values_iff : ∀ name value, (name, value) ∈ values ↔
    env.get? name = some value ∧ value.isClosure = false
  once : ((functions ++ values).map Prod.fst).Nodup

/-- Whether a binding is one of a closure. -/
def isFunction (entry : String × Value) : Bool := entry.2.isClosure

/-- The entries that have a line are those in question, and their lines show them. -/
def LinesOf (about : String × Value → Bool) (line? : String × Value → Option String) : Prop :=
  ∀ entry, (about entry = true ∧ ∃ line, line? entry = some line ∧ ShownAs entry line) ∨
    (about entry = false ∧ line? entry = none)

variable {env : Environment} {entries : List (String × Value)} {input : List Char}

theorem linesOf_functionLine? : LinesOf isFunction functionLine? := by
  rintro ⟨name, value⟩
  cases value with
  | closure => exact .inl ⟨rfl, _, rfl, .function⟩
  | _ => exact .inr ⟨rfl, rfl⟩

theorem linesOf_valueLine? : LinesOf (fun entry => !isFunction entry) valueLine? := by
  rintro ⟨name, value⟩
  cases value with
  | closure => exact .inr ⟨rfl, rfl⟩
  | _ => exact .inl ⟨rfl, _, rfl, .value rfl⟩

/-- The lines of a part of the listing show its entries one by one. -/
theorem LinesOf.forall₂ {about : String × Value → Bool} {line? : String × Value → Option String}
    (shows : LinesOf about line?) (entries : List (String × Value)) :
    List.Forall₂ ShownAs (entries.filter about) (entries.filterMap line?) := by
  induction entries with
  | nil => exact .nil
  | cons entry entries ih =>
      obtain ⟨selected, line, shown, shownAs⟩ | ⟨skipped, hidden⟩ := shows entry
      · rw [List.filter_cons_of_pos selected, List.filterMap_cons_some shown]
        exact .cons shownAs ih
      · rw [List.filter_cons_of_neg (Bool.eq_false_iff.mp skipped),
          List.filterMap_cons_none hidden]
        exact ih

/-- Nothing is lost or doubled where a listing is divided. -/
theorem divides_of_lists (lists : env.Lists entries) :
    Divides env (entries.filter isFunction) (entries.filter fun entry => !isFunction entry) where
  functions_iff name value := by
    rw [List.mem_filter, lists.mem_iff, isFunction]
  values_iff name value := by
    rw [List.mem_filter, lists.mem_iff, isFunction, Bool.not_eq_true']
  once := by
    have parts := List.filter_append_perm isFunction entries
    have distinct : (entries.map Prod.fst).Nodup :=
      Table.nodup_of_sorted (lists.increasing.imp Text.bytes_lt_iff.mp)
    exact (parts.map Prod.fst).nodup_iff.mpr distinct

theorem bindingLines_eq (entries : List (String × Value)) :
    bindingLines entries =
      if entries.filter isFunction ++ entries.filter (fun entry => !isFunction entry) = []
      then ["No user bindings."]
      else titled "Functions" (entries.filterMap functionLine?) ++
        titled "Values" (entries.filterMap valueLine?) := by
  have parts := List.filter_append_perm isFunction entries
  have empty : entries.isEmpty = true ↔
      entries.filter isFunction ++ entries.filter (fun entry => !isFunction entry) = [] := by
    rw [List.isEmpty_iff, ← List.perm_nil, ← List.perm_nil]
    exact ⟨parts.trans, parts.symm.trans⟩
  simp only [bindingLines, empty]

theorem line_listing (typed : String.ofList (Text.trim input) = ":env") (registry : Registry)
    (s : State) :
    line registry input ⟨[], s⟩ = ⟨listingLines registry ⟨s.store, frame⟩, ⟨[], s⟩, false⟩ := by
  have command : Command.ofLine input = .listing := by
    rw [Command.ofLine, typed]
    rfl
  simp [line, command]

end Repl

/-- The listing of a frame in a reachable store increases in the bytes of the names and
holds exactly what lookups find. Going outward along the chain of the frame, keeping the
first entry of each name and sorting what was kept gives the listing, in whatever order the
entries of a frame are met and the kept ones come to be sorted. Frames from which lookups
find the same are listed alike.

The answer to `:env` is the listing of the frame of the loop, divided into closures and
other values. Every name that can be seen is shown on one line of one of the two parts. -/
theorem listing_shows_scope {s : State} (reachable : s.store.Reachable) {f : FrameId}
    (present : f < s.store.size) :
    ((Environment.bindings ⟨s.store, f⟩).Pairwise fun a b =>
      Text.bytes a.1 < Text.bytes b.1) ∧
    (∀ name value, (name, value) ∈ Environment.bindings ⟨s.store, f⟩ ↔
      (Eval.lookup f name).outcome s = (.ok value, s)) ∧
    (∃ path, s.store.Chain f path ∧
      ∀ order : FrameId → List (String × Value),
        (∀ g ∈ path, (order g).Perm (s.store.own g).toList) →
          ∀ kept : List (String × Value), kept.Perm (Store.gather order path) →
            kept.mergeSort Table.byName = Environment.bindings ⟨s.store, f⟩) ∧
    (∀ s' g, (∀ name, ((Eval.lookup g name).outcome s').1 = ((Eval.lookup f name).outcome s).1) →
      Environment.bindings ⟨s'.store, g⟩ = Environment.bindings ⟨s.store, f⟩) ∧
    ∀ registry,
      (∃ functions values functionLines valueLines,
        Repl.Divides ⟨s.store, f⟩ functions values ∧
        List.Forall₂ Repl.ShownAs functions functionLines ∧
        List.Forall₂ Repl.ShownAs values valueLines ∧
        Repl.listingLines registry ⟨s.store, f⟩ =
          ["Special forms: " ++ " ".intercalate registry.forms.names,
            "Primitives:    " ++ " ".intercalate registry.primitives.names,
            ""] ++
          if functions ++ values = [] then ["No user bindings."]
          else Repl.titled "Functions" functionLines ++ Repl.titled "Values" valueLines) ∧
      ∀ input, String.ofList (Text.trim input) = ":env" →
        Repl.line registry input ⟨[], s⟩ =
          ⟨Repl.listingLines registry ⟨s.store, Repl.frame⟩, ⟨[], s⟩, false⟩ := by
  have formed := reachable.wellFormed
  have lists := Environment.lists_bindings ⟨s.store, f⟩
  obtain ⟨path, chain⟩ := formed.exists_chain present
  refine ⟨lists.increasing, ?_, ⟨path, chain, ?_⟩, ?_, fun registry => ⟨?_, ?_⟩⟩
  · intro name value
    rw [lists.mem_iff, Eval.outcome_lookup_eq_ok_iff]
    rfl
  · intro order lists' kept perm
    exact (chain.lists_sort formed lists' perm).unique lists fun _ => rfl
  · intro s' g same
    exact (Environment.lists_bindings ⟨s'.store, g⟩).unique lists fun name =>
      Eval.get?_eq_of_lookup (same name)
  · refine ⟨_, _, _, _, Repl.divides_of_lists lists,
      Repl.linesOf_functionLine?.forall₂ _, Repl.linesOf_valueLine?.forall₂ _, ?_⟩
    rw [Repl.listingLines, Repl.bindingLines_eq]
  · intro input typed
    exact Repl.line_listing typed registry s

/-- A frame whose binding of `b` hides the one outside, where `a` is bound to a closure. -/
def State.overlaid : State :=
  ⟨⟨#[⟨.ofList [("b", .int 1), ("a", .closure 0 ["n"] (.symbol "n"))], none, 0⟩,
    ⟨.ofList [("b", .int 2)], some 0, 1⟩]⟩, 1, #[]⟩

theorem State.reachable_overlaid : State.overlaid.store.Reachable :=
  .step (.openFrame ["b"] [.int 2] (some 0))
    ⟨⟨#[⟨.ofList [("b", .int 1), ("a", .closure 0 ["n"] (.symbol "n"))], none, 0⟩]⟩, 1, #[]⟩
    (.step (.openFrame ["b", "a"] [.int 1, .closure 0 ["n"] (.symbol "n")] none)
      ⟨⟨#[]⟩, 1, #[]⟩ .empty (fun _ link => nomatch link))
    (fun _ link => by cases link; decide)

/-- Although the outer frame is gone through from its last name to its first, the inner
binding of `b` is the one that is listed, after `a`, and `a` is one of the functions. -/
theorem listing_shows_scope_overlaid :
    State.overlaid.store.Reachable ∧ 1 < State.overlaid.store.size ∧
      [("b", .int 2), ("a", .closure 0 ["n"] (.symbol "n"))].mergeSort Table.byName =
        Environment.bindings ⟨State.overlaid.store, 1⟩ ∧
      ∃ functions values, Repl.Divides ⟨State.overlaid.store, 1⟩ functions values ∧
        ("a", .closure 0 ["n"] (.symbol "n")) ∈ functions ∧ ("b", .int 2) ∈ values := by
  have reachable := State.reachable_overlaid
  have present : 1 < State.overlaid.store.size := by decide
  obtain ⟨-, -, ⟨path, chain, sorted⟩, -, shows⟩ := listing_shows_scope reachable present
  obtain ⟨⟨functions, values, -, -, divides, -⟩, -⟩ := shows .standard
  have chain' : State.overlaid.store.Chain 1 [1, 0] := .inner rfl rfl (.root rfl rfl)
  obtain rfl := chain'.unique chain
  refine ⟨reachable, present, ?_, functions, values, divides, ?_, ?_⟩
  · refine sorted (fun g => (State.overlaid.store.own g).toList.reverse) ?_ _ ?_
    · intro g _
      exact List.reverse_perm _
    · exact .swap _ _ _
  · refine (divides.functions_iff _ _).mpr ⟨?_, rfl⟩
    have outside : State.overlaid.store.get? 0 "a" = some (.closure 0 ["n"] (.symbol "n")) := by
      rw [Store.get?_of_frame? rfl]
      rfl
    rw [Environment.get?, Store.get?_of_frame? rfl]
    exact outside
  · refine (divides.values_iff _ _).mpr ⟨?_, rfl⟩
    rw [Environment.get?, Store.get?_of_frame? rfl]
    rfl

end DynamicLisp
