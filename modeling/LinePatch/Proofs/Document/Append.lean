import LinePatch.Document.Reader
import LinePatch.Proofs.Document.Lines

/-!
# Reading one stretch of lines after another

A document is read piece by piece: where a line begins that ends every section, what was read
above it is settled, and the lines from there on are read as if they stood alone, but for their
numbers. An error above the place is the error of the whole.

## Main definitions

* `Document.Reading.andThen`: one reading after another.

## Main results

* `Document.readSections_append`: the reading of two stretches of lines.
* `Document.read_of_lines_eq_append`: the reading of a document that is closed.
-/

namespace LinePatch.Document

namespace Reading

/-- A reading, and after it another one unless it found an error. -/
def andThen (first second : Reading) : Reading :=
  match first.error? with
  | none => ⟨first.actions ++ second.actions, second.error?⟩
  | some _ => first

theorem after_andThen (action : Action) (first second : Reading) :
    (first.after action).andThen second = (first.andThen second).after action := by
  rcases first with ⟨actions, _ | error⟩ <;> rfl

@[simp] theorem andThen_nil (first : Reading) : first.andThen ⟨[], none⟩ = first := by
  rcases first with ⟨actions, _ | error⟩ <;> simp [andThen]

/-- What follows a reading counts exactly if the reading found no error. -/
theorem result_andThen_eq_iff (first second other : Reading) :
    (first.andThen second).result = (first.andThen other).result ↔
      (first.error? = none → second.result = other.result) := by
  rcases first with ⟨actions, _ | error⟩
  · rcases second with ⟨_, _ | _⟩ <;> rcases other with ⟨_, _ | _⟩ <;> simp [andThen, result]
  · simp [andThen]

theorem error?_eq_none_iff (reading : Reading) :
    reading.error? = none ↔ ∃ list, reading.result = .ok list := by
  rcases reading with ⟨actions, _ | error⟩ <;> simp [result]

end Reading

/-- A body reaches to the same line, whatever stands behind the line that ends it. -/
theorem body_append_of_head? (front : List Line) {rest : List Line}
    (hrest : ∀ line ∈ rest.head?, line.isBody = false) :
    body (front ++ rest) = body front ∧ afterBody (front ++ rest) = afterBody front ++ rest := by
  induction front with
  | nil =>
    cases rest with
    | nil => exact ⟨rfl, rfl⟩
    | cons line rest =>
      have hline : line.isBody = false := hrest line rfl
      simp [body, afterBody, hline]
  | cons line front ih =>
    cases hline : line.isBody with
    | false => simp [body, afterBody, hline]
    | true => simpa [body, afterBody, hline] using ih

theorem length_body_add_length_afterBody (lines : List Line) :
    (body lines).length + (afterBody lines).length = lines.length := by
  rw [← List.length_append, body, afterBody, List.takeWhile_append_dropWhile]

/-- **Two stretches of lines are read one after the other**, if the second one begins where every
section ends and the first one is not closed before. -/
theorem readSections_append (bareLines : BareLines) (atEnd : Option SyntaxError)
    (lineNumber : Nat) {front rest : List Line} (hfront : .endMark ∉ front)
    (hrest : ∀ line ∈ rest.head?, line.isBody = false) :
    readSections bareLines atEnd lineNumber (front ++ rest) =
      (readSections bareLines none lineNumber front).andThen
        (readSections bareLines atEnd (lineNumber + front.length) rest) := by
  have hafter {lines : List Line} (h : .endMark ∉ lines) : .endMark ∉ afterBody lines :=
    fun hmem => h ((List.dropWhile_suffix Line.isBody).subset hmem)
  have hnext (lineNumber : Nat) (line : Line) (lines : List Line) :
      lineNumber + 1 + lines.length = lineNumber + (line :: lines).length := by
    rw [List.length_cons]
    omega
  have hsection (lineNumber : Nat) (line : Line) (lines : List Line) :
      lineNumber + 1 + (body lines).length + (afterBody lines).length =
        lineNumber + (line :: lines).length := by
    rw [← hnext, ← length_body_add_length_afterBody lines]
    omega
  fun_induction readSections bareLines none lineNumber front with
  | case1 => rfl
  | case2 => simp at hfront
  | case3 lineNumber path lines hhunks =>
    rw [List.cons_append, readSections, (body_append_of_head? lines hrest).1, hhunks]
    rfl
  | case4 lineNumber path lines hunk more hhunks ih =>
    obtain ⟨hbody, hrest'⟩ := body_append_of_head? lines hrest
    rw [List.cons_append, readSections, hbody, hrest', hhunks, Reading.after_andThen,
      ← hsection, ← ih (hafter (List.not_mem_of_not_mem_cons hfront))]
  | case5 lineNumber path lines error hcontent =>
    rw [List.cons_append, readSections, (body_append_of_head? lines hrest).1, hcontent]
    rfl
  | case6 lineNumber path lines texts hcontent ih =>
    obtain ⟨hbody, hrest'⟩ := body_append_of_head? lines hrest
    rw [List.cons_append, readSections, hbody, hrest', hcontent, Reading.after_andThen,
      ← hsection, ← ih (hafter (List.not_mem_of_not_mem_cons hfront))]
  | case7 lineNumber path lines ih =>
    rw [List.cons_append, readSections, Reading.after_andThen, ← hnext,
      ← ih (List.not_mem_of_not_mem_cons hfront)]
  | case8 lineNumber lines ih | case9 lineNumber label lines ih =>
    rw [List.cons_append, readSections, ← hnext, ← ih (List.not_mem_of_not_mem_cons hfront)]
  | case10 lineNumber line lines hend hupdate hadd hdelete hblank hhunk =>
    rw [List.cons_append, readSections.eq_8 _ _ _ _ _ hend hupdate hadd hdelete hblank hhunk]
    rfl

theorem endMark_mem_map_ofText_iff {lines : List String} :
    .endMark ∈ lines.map Line.ofText ↔ endMark ∈ lines := by
  simp only [List.mem_map, @Line.ofText_eq_iff .endMark rfl, Line.text, exists_eq_right]

/-- The error that the lack of an end mark amounts to in a document with so many lines. -/
def missingEnd (settings : Settings) (lineCount : Nat) : Option SyntaxError :=
  if settings.requireEndMark then some ⟨lineCount, .noEndMark⟩ else none

theorem read_of_lines_cons {settings : Settings} {text first : String} {rest : List String}
    (hlines : Text.lines text = first :: rest) :
    read settings text =
      if Text.beginsWith beginMark first then
        readSections settings.bareLines (missingEnd settings (rest.length + 1)) 2
          (rest.map Line.ofText)
      else .failed 1 .noBeginMark := by
  rw [read, hlines]
  cases hbegin : Text.after? beginMark first <;> simp [Text.beginsWith, missingEnd, hbegin]

/-- **Nothing below the end mark is read**, and with an end mark none is missing. -/
theorem read_of_lines_eq_append {settings : Settings} {text first : String}
    {above below : List String} (hlines : Text.lines text = first :: (above ++ endMark :: below))
    (habove : endMark ∉ above) :
    read settings text =
      if Text.beginsWith beginMark first then
        readSections settings.bareLines none 2 (above.map Line.ofText)
      else .failed 1 .noBeginMark := by
  have hmark : Line.ofText endMark = .endMark := @Line.ofText_text .endMark rfl
  have hkinds : .endMark ∉ above.map Line.ofText :=
    fun hmem => habove (endMark_mem_map_ofText_iff.1 hmem)
  rw [read_of_lines_cons hlines, List.map_append, List.map_cons, hmark,
    readSections_append _ _ _ hkinds (by simp [Line.isBody]), readSections, Reading.andThen_nil]

end LinePatch.Document
