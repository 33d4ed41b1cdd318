import DynamicLisp.Proofs.Reader.Failures

/-!
# How much of the text an error shows

The context of an error is one line that shows the first forty characters of the text at
the point of failure. They are counted before line feeds are spelled out, and a line feed
takes two characters to spell while a carriage return takes none. So the context never has
more than eighty characters, and it has more than forty exactly where the line feeds add
more than the carriage returns, and a text that is shorter than forty, leave room for.
-/

namespace DynamicLisp

open Grammar Reader

namespace ParseError

variable {point : List Char} {shown : String}

/-- The context is missing, or it is one line of at most so many characters. -/
def InLine (limit : Nat) (context : Option String) : Prop :=
  ∀ shown, context = some shown →
    shown ≠ "" ∧ shown.length ≤ limit ∧ '\n' ∉ shown.toList ∧ '\r' ∉ shown.toList

/-- It takes at most forty characters to show the first forty of the text: the line feeds
among them do not outnumber the carriage returns by more than the text falls short of
forty. -/
def Terse (point : List Char) : Prop :=
  (point.take 40).length + (point.take 40).count '\n' ≤ 40 + (point.take 40).count '\r'

theorem length_snippetChar (c : Char) :
    (snippetChar c).length + [c].count '\r' = 1 + [c].count '\n' := by
  by_cases feed : c = '\n'
  · subst feed
    rfl
  · by_cases back : c = '\r'
    · subst back
      rfl
    · simp [snippetChar, feed, back]

theorem length_flatMap_snippetChar (text : List Char) :
    (text.flatMap snippetChar).length + text.count '\r' = text.length + text.count '\n' := by
  induction text with
  | nil => rfl
  | cons c text ih =>
      have first := length_snippetChar c
      rw [List.flatMap_cons, List.length_append, List.length_cons,
        ← List.singleton_append, List.count_append, List.count_append]
      omega

theorem mem_snippetChar {c shown : Char} (member : shown ∈ snippetChar c) :
    shown ≠ '\n' ∧ shown ≠ '\r' := by
  unfold snippetChar at member
  split at member
  · obtain rfl | rfl : shown = '\\' ∨ shown = 'n' := by simpa using member
    · decide
    · decide
  · split at member
    · cases member
    · next noFeed noReturn =>
      obtain rfl := List.mem_singleton.mp member
      exact ⟨noFeed, noReturn⟩

theorem toList_of_snippet (same : snippet point = some shown) :
    shown.toList = (point.take 40).flatMap snippetChar := by
  unfold snippet at same
  split at same
  · cases same
  · rw [← Option.some.inj same, String.toList_ofList]
    rfl

theorem ne_empty_of_snippet (same : snippet point = some shown) : shown ≠ "" := by
  unfold snippet at same
  split at same
  · cases same
  · next something =>
    rw [← Option.some.inj same]
    simpa using something

theorem not_mem_of_snippet (same : snippet point = some shown) :
    '\n' ∉ shown.toList ∧ '\r' ∉ shown.toList := by
  have other : ∀ c ∈ shown.toList, c ≠ '\n' ∧ c ≠ '\r' := by
    intro c member
    rw [toList_of_snippet same] at member
    obtain ⟨_, -, shows⟩ := List.mem_flatMap.mp member
    exact mem_snippetChar shows
  exact ⟨fun member => (other _ member).1 rfl, fun member => (other _ member).2 rfl⟩

/-- The snippet is as long as what it shows, with one character more for each line feed and
one less for each carriage return. -/
theorem length_of_snippet (same : snippet point = some shown) :
    shown.length + (point.take 40).count '\r' =
      (point.take 40).length + (point.take 40).count '\n' := by
  rw [← String.length_toList, toList_of_snippet same]
  exact length_flatMap_snippetChar _

/-- Where nothing is shown there is nothing but carriage returns, which take no room. -/
theorem terse_of_snippet_eq_none (missing : snippet point = none) : Terse point := by
  unfold snippet at missing
  split at missing
  · next nothing =>
    have length := length_flatMap_snippetChar (point.take 40)
    rw [snippetLength] at nothing
    rw [nothing, List.length_nil] at length
    unfold Terse
    omega
  · cases missing

theorem inLine_snippet (point : List Char) : InLine 80 (snippet point) := by
  intro shown same
  have length := length_of_snippet same
  have taken : (point.take 40).length ≤ 40 := List.length_take_le 40 point
  have feeds : (point.take 40).count '\n' ≤ (point.take 40).length := List.count_le_length
  obtain ⟨noFeed, noReturn⟩ := not_mem_of_snippet same
  exact ⟨ne_empty_of_snippet same, by omega, noFeed, noReturn⟩

theorem inLine_forty_iff (point : List Char) : InLine 40 (snippet point) ↔ Terse point := by
  cases same : snippet point with
  | none =>
      refine ⟨fun _ => terse_of_snippet_eq_none same, ?_⟩
      intro _ shown absurdity
      cases absurdity
  | some shown =>
      have length := length_of_snippet same
      have terse : shown.length ≤ 40 ↔ Terse point := by
        unfold Terse
        omega
      rw [← terse]
      constructor
      · intro inLine
        exact (inLine shown rfl).2.1
      · rintro short _ ⟨⟩
        obtain ⟨noFeed, noReturn⟩ := not_mem_of_snippet same
        exact ⟨ne_empty_of_snippet same, short, noFeed, noReturn⟩

end ParseError

section Readers

variable {d : Dialect} {text : List Char} {error : ParseError}

/-- The error is one at a point of the text. -/
def ParseError.MadeIn (text : List Char) (error : ParseError) : Prop :=
  ∃ point, point <:+ text ∧ error = .near error.kind error.message point

theorem madeIn_of_readNext (failed : readNext d text = .error error) : error.MadeIn text := by
  obtain ⟨cause, point, found, rfl⟩ := readNext_eq_error_iff.mp failed
  obtain ⟨before, stack, located⟩ := located_of_first_fault found
  have suffix : point <:+ text := ⟨before, located.shape.symm⟩
  cases cause with
  | tooDeep => exact ⟨point, suffix, rfl⟩
  | endOfText => exact ⟨point, suffix, rfl⟩
  | strayClose => exact ⟨point, suffix, rfl⟩

theorem madeIn_of_readOne (failed : readOne d text = .error error) : error.MadeIn text := by
  obtain failed | ⟨-, rfl⟩ | ⟨read, value, after, remainder, rfl, -, -, -, rfl⟩ :=
    readOne_eq_error_iff.mp failed
  · exact madeIn_of_readNext failed
  · exact ⟨[], List.nil_suffix, rfl⟩
  · refine ⟨remainder, ?_, rfl⟩
    rw [← List.append_assoc]
    exact List.suffix_append _ _

theorem madeIn_of_readAll (failed : readAll d text = .error error) : error.MadeIn text := by
  obtain ⟨read, rest, shape, -, ⟨-, done⟩ | ⟨error', next, stopped⟩⟩ :=
    Chunk.exists_forms_read d text
  · simp only [readAll, done] at failed
    cases failed
  · simp only [readAll, stopped] at failed
    cases failed
    obtain ⟨point, suffix, same⟩ := madeIn_of_readNext next
    exact ⟨point, suffix.trans ⟨read, shape.symm⟩, same⟩

end Readers

/-- The context of an error at any offset of a text is missing or is one line of at most
eighty characters, without line feeds and carriage returns, and forty characters are enough
exactly where the text from there on is terse. Every error that reading gives is one at a
point of the text, so the same holds of it. -/
theorem error_context_bounded (text : List Char) :
    (∀ kind message offset,
      let error := ParseError.near kind message (text.drop offset)
      ParseError.InLine 80 error.context ∧
        (ParseError.InLine 40 error.context ↔ ParseError.Terse (text.drop offset))) ∧
    ∀ d error, (readOne d text = .error error ∨ readAll d text = .error error ∨
        readNext d text = .error error) →
      ∃ point, point <:+ text ∧ error = .near error.kind error.message point ∧
        ParseError.InLine 80 error.context ∧
        (ParseError.InLine 40 error.context ↔ ParseError.Terse point) := by
  constructor
  · intro kind message offset
    exact ⟨ParseError.inLine_snippet _, ParseError.inLine_forty_iff _⟩
  · intro d error failed
    have made : error.MadeIn text := by
      obtain failed | failed | failed := failed
      · exact madeIn_of_readOne failed
      · exact madeIn_of_readAll failed
      · exact madeIn_of_readNext failed
    obtain ⟨point, suffix, same⟩ := made
    refine ⟨point, suffix, same, ?_⟩
    rw [same]
    exact ⟨ParseError.inLine_snippet point, ParseError.inLine_forty_iff point⟩

/-- A carriage return before a line feed makes room for it. -/
theorem error_context_bounded_return :
    readOne .plain ")\r\n".toList =
        .error ⟨.unexpectedClose, "Unexpected ')' at position 0", some ")\\n"⟩ ∧
      ParseError.InLine 80 (some ")\\n") ∧
      ∃ point, point <:+ ")\r\n".toList ∧
        (ParseError.InLine 40 (some ")\\n") ↔ ParseError.Terse point) := by
  have failed : readOne .plain ")\r\n".toList =
      .error ⟨.unexpectedClose, "Unexpected ')' at position 0", some ")\\n"⟩ := rfl
  obtain ⟨point, suffix, -, inLine, iff⟩ := (error_context_bounded _).2 _ _ (.inl failed)
  exact ⟨failed, inLine, point, suffix, iff⟩

/-- Forty line feeds are shown as eighty characters, and the error for a closing parenthesis
before line feeds shows nearly as many. -/
theorem context_exceeds_forty :
    (∃ shown, (ParseError.near .incomplete "" (List.replicate 40 '\n')).context = some shown ∧
      shown.length = 80) ∧
    ∃ error shown, readOne .plain (')' :: 'a' :: List.replicate 38 '\n') = .error error ∧
      error.context = some shown ∧ shown.length = 78 := by
  refine ⟨⟨_, rfl, ?_⟩, _, _, rfl, rfl, ?_⟩
  · rw [String.length_ofList]
    rfl
  · rw [String.length_ofList]
    rfl

end DynamicLisp
