import DynamicLisp.Proofs.Reader.Runs

/-!
# Runs and derivations

A derivation in the grammar determines a run of the reader. For the other
direction, every text is classified by what it starts with: a form, a closing
parenthesis, nothing but trivia, or something at which the reader fails. So where
the reader succeeds there is a derivation.
-/

namespace DynamicLisp.Reader

open Grammar

mutual

/-- A form is read and delivered to the contexts it stands in. -/
theorem run_form {d : Dialect} :
    ∀ {depth : Nat} {text : List Char} {value : Value} {rest : List Char},
      Form d depth text value rest → ∀ stack : List Context, stack.length = depth →
        run d .between stack (text ++ rest) = resume d (deliver value stack) rest
  | _, _, _, _, .atom shallow skipped token denotes, stack, inside => by
      rw [List.append_assoc, run_trivia skipped, run_token (inside ▸ shallow) token,
        denotes_iff.mp denotes]
  | _, _, _, rest, @Form.list _ _ before text values after _ shallow skipped items trailing,
      stack, inside => by
      calc run d .between stack (before ++ '(' :: text ++ after ++ [')'] ++ rest)
        _ = run d .between stack ('(' :: text ++ after ++ ')' :: rest) := by
            rw [← run_trivia skipped]
            simp only [List.cons_append, List.append_assoc, List.nil_append]
        _ = run d .between (.list [] :: stack) (text ++ (after ++ ')' :: rest)) := by
            rw [← run_open (inside ▸ shallow), List.cons_append, List.cons_append,
              List.append_assoc]
        _ = run d .between (.list (values.reverse ++ []) :: stack) (after ++ ')' :: rest) :=
            run_forms items [] stack (by rw [inside])
        _ = resume d (deliver (.list values) stack) rest := by
            rw [run_trivia trailing, run_close, List.append_nil, List.reverse_reverse]
  | _, _, _, rest, @Form.quote _ _ before text value _ shallow skipped quoted, stack, inside => by
      have deeper : stack.length + 1 < maxNesting := inside ▸ quoted.depth_lt
      calc run d .between stack (before ++ Dialect.quoteMark :: text ++ rest)
        _ = run d .between stack (Dialect.quoteMark :: text ++ rest) := by
            rw [← run_trivia skipped, List.append_assoc]
        _ = run d .between (.quote :: stack) (text ++ rest) := by
            rw [List.cons_append, run_quote deeper]
        _ = resume d (deliver value (.quote :: stack)) rest :=
            run_form quoted (.quote :: stack) (by rw [List.length_cons, inside])

/-- Forms are read into the list they stand in. -/
theorem run_forms {d : Dialect} :
    ∀ {depth : Nat} {text : List Char} {values : List Value} {rest : List Char},
      Forms d depth text values rest → ∀ (items : List Value) (outer : List Context),
        outer.length + 1 = depth →
          run d .between (.list items :: outer) (text ++ rest) =
            run d .between (.list (values.reverse ++ items) :: outer) rest
  | _, _, _, _, .nil, _, _, _ => rfl
  | _, _, _, _, @Forms.cons _ _ _ value _ _ _ first later, items, outer, inside => by
      rw [List.append_assoc, run_form first (.list items :: outer) inside, deliver, resume,
        run_forms later (value :: items) outer inside, List.reverse_cons, List.append_assoc,
        List.singleton_append]

end

section Fronts

/-- Inside so many contexts the text cannot be read. -/
def Faults (d : Dialect) (depth : Nat) (text : List Char) : Prop :=
  ∀ stack : List Context, stack.length = depth →
    ∃ cause rest, run d .between stack text = .fault cause rest

/-- What a text can start with inside so many contexts. -/
inductive Front (d : Dialect) (depth : Nat) : List Char → Prop where
  | form {text value rest} (form : Form d depth text value rest) : Front d depth (text ++ rest)
  | close {before rest} (skipped : Trivia d before (')' :: rest)) :
      Front d depth (before ++ ')' :: rest)
  | trivia {text} (skipped : Trivia d text []) : Front d depth text
  | fault {text} (faults : Faults d depth text) : Front d depth text

/-- What can follow an opening parenthesis. -/
inductive ListFront (d : Dialect) (depth : Nat) : List Char → Prop where
  | closed {text values after rest} (items : Forms d depth text values (after ++ ')' :: rest))
      (trailing : Trivia d after (')' :: rest)) : ListFront d depth (text ++ (after ++ ')' :: rest))
  | fault {text} (faults : ∀ items outer, outer.length + 1 = depth →
      ∃ cause rest, run d .between (.list items :: outer) text = .fault cause rest) :
      ListFront d depth text

variable {d : Dialect} {depth : Nat} {text rest : List Char}

/-- Trivia do not complete what is open. -/
theorem run_trivia_end (skipped : Trivia d text []) (context : Context) (outer : List Context) :
    run d .between (context :: outer) text = unfinished (context :: outer) := by
  have read : run d .between (context :: outer) (text ++ []) = _ := run_trivia skipped
  rw [List.append_nil] at read
  rw [read]
  rfl

/-- The items of a list are read one after the other. -/
theorem listFront_of_front (fronts : ∀ later, later.length ≤ text.length → Front d depth later) :
    ListFront d depth text := by
  induction size : text.length using Nat.strongRecOn generalizing text with
  | ind size ih =>
      subst size
      have front := fronts text (Nat.le_refl _)
      cases front with
      | close skipped => exact .closed .nil skipped
      | trivia skipped =>
          apply ListFront.fault
          intro items outer _
          exact ⟨_, _, run_trivia_end skipped (.list items) outer⟩
      | fault faults =>
          apply ListFront.fault
          intro items outer inside
          exact faults (.list items :: outer) inside
      | @form text value rest form =>
          have shorter : rest.length < (text ++ rest).length := by
            have nonempty := List.length_pos_iff.mpr form.nonempty
            rw [List.length_append]
            omega
          have later := ih rest.length shorter
            (fun later bound => fronts later (Nat.le_trans bound (Nat.le_of_lt shorter))) rfl
          cases later with
          | @closed texts values after rest items trailing =>
              rw [← List.append_assoc]
              exact .closed (.cons form items) trailing
          | fault faults =>
              apply ListFront.fault
              intro items outer inside
              rw [run_form form (.list items :: outer) inside]
              exact faults (value :: items) outer inside

theorem Faults.after_trivia {before : List Char} (faults : Faults d depth text)
    (skipped : Trivia d before text) : Faults d depth (before ++ text) := by
  intro stack inside
  rw [run_trivia skipped]
  exact faults stack inside

/-- An atom goes on to the next delimiter. -/
theorem exists_token {c : Char} (plain : c ∉ delimiters d) (noQuote : c ≠ Dialect.quoteMark)
    (text : List Char) : ∃ word rest, c :: text = word ++ rest ∧ Token d word rest := by
  let inside (c : Char) : Bool := !d.isDelimiter c
  have inside_iff (c : Char) : inside c = true ↔ c ∉ delimiters d := by
    rw [← isDelimiter_iff]
    simp [inside]
  have starts : (c :: text).takeWhile inside = c :: text.takeWhile inside :=
    List.takeWhile_cons_of_pos ((inside_iff c).mpr plain)
  refine ⟨(c :: text).takeWhile inside, (c :: text).dropWhile inside,
    List.takeWhile_append_dropWhile.symm, by simp [starts], ?_, by simpa [starts] using noQuote, ?_⟩
  · intro other member
    exact (inside_iff other).mp (List.all_eq_true.mp List.all_takeWhile other member)
  · intro other first
    have stops := List.head?_dropWhile_not inside (c :: text)
    rw [Option.mem_def.mp first] at stops
    exact isDelimiter_iff.mp (by simpa [inside] using stops)

section Shallow

variable {before : List Char} (shallow : depth < depthLimit)

include shallow

theorem front_open (skipped : Trivia d before ('(' :: text))
    (front : ListFront d (depth + 1) text) : Front d depth (before ++ '(' :: text) := by
  cases front with
  | @closed text values after rest items trailing =>
      have form : Form d depth (before ++ '(' :: text ++ after ++ [')']) (.list values) rest :=
        .list shallow (by simpa using skipped) items trailing
      simpa using Front.form form
  | fault faults =>
      refine .fault (Faults.after_trivia ?_ skipped)
      intro stack inside
      rw [run_open (inside ▸ shallow)]
      exact faults [] stack (by rw [inside])

theorem front_quote (skipped : Trivia d before (Dialect.quoteMark :: text))
    (front : Front d (depth + 1) text) :
    Front d depth (before ++ Dialect.quoteMark :: text) := by
  by_cases deeper : depth + 1 < depthLimit
  · have enter : ∀ stack : List Context, stack.length = depth →
        run d .between stack (Dialect.quoteMark :: text) = run d .between (.quote :: stack) text :=
      fun _ inside => run_quote (inside ▸ deeper)
    cases front with
    | @form text value rest form =>
        have quoted : Form d depth (before ++ Dialect.quoteMark :: text)
            (.list [.symbol "quote", value]) rest := .quote shallow skipped form
        simpa using Front.form quoted
    | @close between rest skipped' =>
        refine .fault (Faults.after_trivia ?_ skipped)
        intro stack inside
        rw [enter stack inside, run_trivia skipped', run_strayClose (by simp)]
        exact ⟨_, _, rfl⟩
    | trivia skipped' =>
        refine .fault (Faults.after_trivia ?_ skipped)
        intro stack inside
        rw [enter stack inside, run_trivia_end skipped']
        exact ⟨_, _, rfl⟩
    | fault faults =>
        refine .fault (Faults.after_trivia ?_ skipped)
        intro stack inside
        rw [enter stack inside]
        exact faults (.quote :: stack) (by rw [List.length_cons, inside])
  · refine .fault (Faults.after_trivia ?_ skipped)
    intro stack inside
    have deep : maxNesting ≤ stack.length + 1 := inside ▸ Nat.not_lt.mp deeper
    exact ⟨_, _, run_quote_tooDeep (inside ▸ shallow) deep⟩

/-- Any character that starts nothing else starts an atom. -/
theorem front_token {c : Char} (skipped : Trivia d before (c :: text)) (plain : c ∉ delimiters d)
    (noQuote : c ≠ Dialect.quoteMark) : Front d depth (before ++ c :: text) := by
  obtain ⟨word, rest, shape, token⟩ := exists_token plain noQuote text
  have form : Form d depth (before ++ word) (Atom.value word) rest :=
    .atom shallow (shape ▸ skipped) token (denotes_iff.mpr rfl)
  rw [shape, ← List.append_assoc]
  exact .form form

end Shallow

/-- A text starts with a form, a closing parenthesis, nothing at all or something
that cannot be read. -/
theorem front (d : Dialect) (bound : depth ≤ depthLimit) (text : List Char) :
    Front d depth text := by
  induction size : text.length using Nat.strongRecOn generalizing text depth with
  | ind size ih =>
      subst size
      obtain ⟨before, shape, skipped⟩ := exists_trivia_skip d text
      cases head : d.skip text with
      | nil =>
          rw [head] at shape skipped
          rw [shape, List.append_nil]
          exact .trivia skipped
      | cons c rest =>
          obtain ⟨noSpace, noComment⟩ := head_skipFrom head
          rw [head] at shape skipped
          subst shape
          have shorter : rest.length < (before ++ c :: rest).length := by
            rw [List.length_append, List.length_cons]
            omega
          by_cases isClose : c = ')'
          · subst isClose
            exact .close skipped
          by_cases deep : maxNesting ≤ depth
          · refine .fault (Faults.after_trivia ?_ skipped)
            intro stack inside
            exact ⟨_, _, run_tooDeep (inside ▸ deep) noSpace noComment isClose⟩
          have shallow : depth < depthLimit := Nat.not_le.mp deep
          by_cases isOpen : c = '('
          · subst isOpen
            apply front_open shallow skipped
            apply listFront_of_front
            intro later within
            exact ih later.length (Nat.lt_of_le_of_lt within shorter) shallow later rfl
          by_cases isQuote : c = Dialect.quoteMark
          · subst isQuote
            exact front_quote shallow skipped (ih rest.length shorter shallow rest rfl)
          · exact front_token shallow skipped
              (not_mem_delimiters noSpace noComment isOpen isClose) isQuote

end Fronts

end DynamicLisp.Reader
