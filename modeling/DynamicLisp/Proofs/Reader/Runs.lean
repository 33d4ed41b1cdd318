import DynamicLisp.Proofs.Reader.Literals

/-!
# Runs of the reader

What the reader makes of a text that starts with trivia, with a token or with one
of the characters that open, close and quote. Each statement leaves the text that
follows open, so that runs can be put together in the way the grammar puts phrases
together.
-/

namespace DynamicLisp.Reader

open Grammar

variable {d : Dialect} {stack : List Context} {c : Char} {text rest : List Char}

section Characters

theorem isSpace_iff : Dialect.isSpace c = true ↔ c ∈ spaces := by
  simp [Dialect.isSpace, spaces, or_assoc]

theorem startsComment_iff : d.startsComment c = true ↔ d.comments = true ∧ c = ';' := by
  simp [Dialect.startsComment]

theorem isDelimiter_iff : d.isDelimiter c = true ↔ c ∈ delimiters d := by
  simp only [Dialect.isDelimiter, Bool.or_eq_true, isSpace_iff, startsComment_iff, beq_iff_eq,
    delimiters, List.mem_append, List.mem_cons, List.not_mem_nil, or_false, or_assoc]
  cases d.comments <;> simp

theorem not_mem_delimiters (noSpace : c ∉ spaces) (noComment : d.startsComment c = false)
    (noOpen : c ≠ '(') (noClose : c ≠ ')') : c ∉ delimiters d := by
  rw [← isDelimiter_iff, Dialect.isDelimiter, noComment]
  simp [noOpen, noClose, isSpace_iff, noSpace]

theorem spaces_subset_delimiters (space : c ∈ spaces) : c ∈ delimiters d := by
  simp [delimiters, space]

end Characters

/-- Reading on when a value has been delivered. -/
def resume (d : Dialect) : Delivery → List Char → Reading
  | .complete value, rest => .form value rest
  | .pending stack, rest => run d .between stack rest

section Trivia

theorem run_space (space : c ∈ spaces) :
    run d .between stack (c :: rest) = run d .between stack rest := by
  simp only [run, step, stepBetween, isSpace_iff.mpr space, if_true]

theorem run_semicolon (enabled : d.comments = true) :
    run d .between stack (';' :: rest) = run d .comment stack rest := by
  have start : d.startsComment ';' = true := startsComment_iff.mpr ⟨enabled, rfl⟩
  have noSpace : Dialect.isSpace ';' = false := by decide
  simp only [run, step, stepBetween, start, noSpace, if_true, Bool.false_eq_true, if_false]

/-- A line feed, or the end of the text, means the same in a comment and outside. -/
theorem run_comment_end (ends : ∀ c ∈ rest.head?, c = '\n') :
    run d .comment stack rest = run d .between stack rest := by
  cases rest with
  | nil => cases stack <;> rfl
  | cons c rest =>
      obtain rfl : c = '\n' := ends c rfl
      rw [run_space (by decide)]
      rfl

theorem run_comment (unbroken : '\n' ∉ text) (ends : ∀ c ∈ rest.head?, c = '\n') :
    run d .comment stack (text ++ rest) = run d .between stack rest := by
  induction text with
  | nil => exact run_comment_end ends
  | cons c text ih =>
      have other : (c == '\n') = false := by
        rw [beq_eq_false_iff_ne]
        exact fun same => unbroken (same ▸ List.mem_cons_self)
      rw [← ih fun member => unbroken (List.mem_cons_of_mem c member)]
      simp only [List.cons_append, run, step, other, Bool.false_eq_true, if_false]

theorem run_trivia (skipped : Trivia d text rest) :
    run d .between stack (text ++ rest) = run d .between stack rest := by
  induction skipped with
  | nil => rfl
  | space space _ ih => rw [List.cons_append, run_space space, ih]
  | comment enabled unbroken ends _ ih =>
      rw [List.cons_append, List.cons_append, run_semicolon enabled, List.append_assoc,
        run_comment unbroken ends, ih]

theorem skipFrom_comment (unbroken : '\n' ∉ text) (ends : ∀ c ∈ rest.head?, c = '\n') :
    d.skipFrom true (text ++ rest) = d.skipFrom false rest := by
  induction text with
  | nil =>
      cases rest with
      | nil => rfl
      | cons c rest =>
          obtain rfl : c = '\n' := ends c rfl
          rfl
  | cons c text ih =>
      have other : (c != '\n') = true := by
        rw [bne_iff_ne]
        exact fun same => unbroken (same ▸ List.mem_cons_self)
      rw [List.cons_append, Dialect.skipFrom, other]
      exact ih fun member => unbroken (List.mem_cons_of_mem c member)

theorem skip_trivia (skipped : Trivia d text rest) : d.skip (text ++ rest) = d.skip rest := by
  unfold Dialect.skip
  induction skipped with
  | nil => rfl
  | space space _ ih =>
      rw [List.cons_append, Dialect.skipFrom, if_pos (isSpace_iff.mpr space), ih]
  | comment enabled unbroken ends _ ih =>
      have start : d.startsComment ';' = true := startsComment_iff.mpr ⟨enabled, rfl⟩
      have noSpace : ¬ Dialect.isSpace ';' = true := by decide
      rw [List.cons_append, List.cons_append, Dialect.skipFrom, if_neg noSpace, if_pos start,
        List.append_assoc, skipFrom_comment unbroken ends, ih]

/-- What is skipped is trivia. The second half is about texts that start inside a
comment. -/
theorem trivia_skipFrom (d : Dialect) (text : List Char) :
    (∃ before, text = before ++ d.skipFrom false text ∧
      Trivia d before (d.skipFrom false text)) ∧
    ∃ line before, text = line ++ before ++ d.skipFrom true text ∧ '\n' ∉ line ∧
      (∀ c ∈ (before ++ d.skipFrom true text).head?, c = '\n') ∧
      Trivia d before (d.skipFrom true text) := by
  induction text with
  | nil => exact ⟨⟨[], rfl, .nil⟩, [], [], rfl, by simp, by simp [Dialect.skipFrom], .nil⟩
  | cons c text ih =>
      obtain ⟨⟨before, shape, skipped⟩, line, later, shape', unbroken, ends, skipped'⟩ := ih
      constructor
      · rw [Dialect.skipFrom]
        split
        · next space =>
          exact ⟨c :: before, congrArg (c :: ·) shape, .space (isSpace_iff.mp space) skipped⟩
        · split
          · next start =>
            obtain ⟨enabled, rfl⟩ := startsComment_iff.mp start
            exact ⟨';' :: line ++ later, congrArg (';' :: ·) shape',
              .comment enabled unbroken ends skipped'⟩
          · exact ⟨[], rfl, .nil⟩
      · rw [Dialect.skipFrom]
        by_cases newline : c = '\n'
        · subst newline
          exact ⟨[], '\n' :: before, congrArg ('\n' :: ·) shape, by simp, by simp,
            .space (by decide) skipped⟩
        · rw [bne_iff_ne.mpr newline]
          refine ⟨c :: line, later, congrArg (c :: ·) shape', ?_, ends, skipped'⟩
          simp [Ne.symm newline, unbroken]

theorem exists_trivia_skip (d : Dialect) (text : List Char) :
    ∃ before, text = before ++ d.skip text ∧ Trivia d before (d.skip text) :=
  (trivia_skipFrom d text).1

theorem head_skipFrom {inComment : Bool} (skipped : d.skipFrom inComment text = c :: rest) :
    c ∉ spaces ∧ d.startsComment c = false := by
  induction text generalizing inComment with
  | nil => cases skipped
  | cons first text ih =>
      cases inComment with
      | true => exact ih skipped
      | false =>
          rw [Dialect.skipFrom] at skipped
          split at skipped
          · exact ih skipped
          · next noSpace =>
            split at skipped
            · exact ih skipped
            · next noComment =>
              cases skipped
              exact ⟨fun space => noSpace (isSpace_iff.mpr space), Bool.eq_false_iff.mpr noComment⟩

end Trivia

section Parentheses

variable {items : List Value} {outer : List Context}

theorem run_open (shallow : stack.length < maxNesting) :
    run d .between stack ('(' :: rest) = run d .between (.list [] :: stack) rest := by
  simp [run, step, stepBetween, Dialect.isSpace, Dialect.startsComment, Nat.not_le.mpr shallow]

theorem run_quote (shallow : stack.length + 1 < maxNesting) :
    run d .between stack (Dialect.quoteMark :: rest) = run d .between (.quote :: stack) rest := by
  have outside : stack.length < maxNesting := Nat.lt_of_succ_lt shallow
  simp [run, step, stepBetween, Dialect.isSpace, Dialect.startsComment, Dialect.quoteMark,
    Nat.not_le.mpr shallow, Nat.not_le.mpr outside]

theorem run_close :
    run d .between (.list items :: outer) (')' :: rest) =
      resume d (deliver (.list items.reverse) outer) rest := by
  cases delivered : deliver (.list items.reverse) outer <;>
    simp [run, step, stepBetween, Dialect.isSpace, Dialect.startsComment, delivered, resume]

theorem run_strayClose (noList : ∀ items outer, stack ≠ .list items :: outer) :
    run d .between stack (')' :: rest) = .fault .strayClose (')' :: rest) := by
  cases stack with
  | nil => simp [run, step, stepBetween, Dialect.isSpace, Dialect.startsComment]
  | cons context outer =>
      cases context with
      | list items => exact absurd rfl (noList items outer)
      | quote => simp [run, step, stepBetween, Dialect.isSpace, Dialect.startsComment]

/-- Where no further context fits, only trivia and closing parentheses can be read. -/
theorem run_tooDeep (deep : maxNesting ≤ stack.length) (noSpace : c ∉ spaces)
    (noComment : d.startsComment c = false) (noClose : c ≠ ')') :
    run d .between stack (c :: rest) = .fault .tooDeep (c :: rest) := by
  have other : Dialect.isSpace c = false := by
    rw [← Bool.not_eq_true, isSpace_iff]
    exact noSpace
  simp [run, step, stepBetween, other, noComment, noClose, deep]

theorem run_quote_tooDeep (shallow : stack.length < maxNesting)
    (deep : maxNesting ≤ stack.length + 1) :
    run d .between stack (Dialect.quoteMark :: rest) = .fault .tooDeep rest := by
  simp [run, step, stepBetween, Dialect.isSpace, Dialect.startsComment, Dialect.quoteMark, deep,
    Nat.not_le.mpr shallow]

end Parentheses

section Tokens

/-- Only a list is left waiting by a delivery, so the text must go on after it. -/
theorem run_nil_of_pending {value : Value} {later : List Context}
    (delivered : deliver value stack = .pending later) :
    run d .between later [] = unfinished later := by
  induction stack generalizing value with
  | nil => cases delivered
  | cons context outer ih =>
      cases context with
      | list items =>
          cases delivered
          rfl
      | quote => exact ih delivered

theorem run_atom {chars : List Char} (unbroken : ∀ c ∈ text, c ∉ delimiters d)
    (maximal : ∀ c ∈ rest.head?, c ∈ delimiters d) :
    run d (.atom chars) stack (text ++ rest) =
      resume d (deliver (Atom.value (chars.reverse ++ text)) stack) rest := by
  induction text generalizing chars with
  | nil =>
      rw [List.nil_append, List.append_nil]
      cases delivered : deliver (Atom.value chars.reverse) stack with
      | complete value =>
          cases rest with
          | nil => simp [run, finish, delivered, resume]
          | cons c rest =>
              have ends := isDelimiter_iff.mpr (maximal c rfl)
              simp [run, step, ends, delivered, resume]
      | pending later =>
          cases rest with
          | nil =>
              rw [resume, run_nil_of_pending delivered]
              simp [run, finish, delivered]
          | cons c rest =>
              have ends := isDelimiter_iff.mpr (maximal c rfl)
              simp only [run, step, ends, delivered, resume, if_true]
  | cons c text ih =>
      have inside : d.isDelimiter c = false := by
        rw [← Bool.not_eq_true, isDelimiter_iff]
        exact unbroken c List.mem_cons_self
      rw [List.cons_append, run, step, inside]
      simp only [Bool.false_eq_true, if_false]
      rw [ih fun c member => unbroken c (List.mem_cons_of_mem _ member), List.reverse_cons,
        List.append_assoc, List.singleton_append]

theorem run_token (shallow : stack.length < maxNesting) (token : Token d text rest) :
    run d .between stack (text ++ rest) = resume d (deliver (Atom.value text) stack) rest := by
  obtain ⟨nonempty, unbroken, unquoted, maximal⟩ := token
  cases text with
  | nil => exact absurd rfl nonempty
  | cons c text =>
      have inside := unbroken c List.mem_cons_self
      have begun : step d .between stack c = .more (.atom [c]) stack := by
        have plain : d.isDelimiter c = false := by
          rw [← Bool.not_eq_true, isDelimiter_iff]
          exact inside
        simp only [Dialect.isDelimiter, Bool.or_eq_false_iff, beq_eq_false_iff_ne] at plain
        obtain ⟨⟨⟨noSpace, noOpen⟩, noClose⟩, noComment⟩ := plain
        have noQuote : c ≠ Dialect.quoteMark := fun same => unquoted (by rw [same]; rfl)
        simp [step, stepBetween, noSpace, noOpen, noClose, noComment, noQuote,
          Nat.not_le.mpr shallow]
      rw [List.cons_append, run, begun]
      exact run_atom (fun c member => unbroken c (List.mem_cons_of_mem _ member)) maximal

end Tokens

end DynamicLisp.Reader
