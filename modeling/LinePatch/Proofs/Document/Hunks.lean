import LinePatch.Document.Section
import Mathlib.Data.List.TakeWhile

/-!
# The hunks of a body

A mark opens a hunk, and what stands below it up to the next mark are the lines of the hunk. So
gathering the hunks of a body loses none of its lines and keeps their order, and a line is only
left out above the first mark, or where bare lines are skipped.

## Main definitions

* `Document.Line.hunkLines`: what a line of a body brings to the hunk that it stands in.

## Main results

* `Document.flatMap_lines_hunks`: the lines of all hunks of a body.
* `Document.exists_of_mem_hunks`: where a hunk of a body comes from.
* `Document.hunks_concat_blank_iff`: the bodies that a blank line at the end does not change.
-/

namespace LinePatch.Document

/-- What a line of a body brings to the hunk that it stands in: a mark opens another hunk. -/
def Line.hunkLines (bareLines : BareLines) : Line → List HunkLine
  | .hunk _ => []
  | line => (line.hunkLine? bareLines).toList

variable {bareLines : BareLines} {hunk : Hunk} {lines : List HunkLine} {later : List Hunk}
  {body : List Line}

theorem mem_hunkThen_iff {label : Option String} :
    hunk ∈ hunkThen label lines later ↔ lines ≠ [] ∧ hunk = ⟨label, lines⟩ ∨ hunk ∈ later := by
  cases lines <;> simp [hunkThen]

theorem flatMap_lines_hunkThen (label : Option String) (lines : List HunkLine)
    (later : List Hunk) :
    (hunkThen label lines later).flatMap Hunk.lines = lines ++ later.flatMap Hunk.lines := by
  cases lines <;> simp [hunkThen]

/-- A line that is no mark belongs to the hunk that the body begins in. -/
theorem gather_cons_of_not_hunk {line : Line} (h : ∀ rest, line ≠ .hunk rest) :
    gather bareLines (line :: body) =
      (line.hunkLines bareLines ++ (gather bareLines body).1, (gather bareLines body).2) := by
  cases line with
  | hunk rest => exact absurd rfl (h rest)
  | _ => rfl

/-- A mark ends the hunk that the body begins in. -/
theorem gather_cons_hunk (rest : String) :
    gather bareLines (.hunk rest :: body) =
      ([], hunkThen (label rest) (gather bareLines body).1 (gather bareLines body).2) :=
  rfl

theorem flatMap_lines_gather (bareLines : BareLines) (body : List Line) :
    (gather bareLines body).1 ++ (gather bareLines body).2.flatMap Hunk.lines =
      body.flatMap (Line.hunkLines bareLines) := by
  induction body with
  | nil => rfl
  | cons line body ih =>
    rw [List.flatMap_cons, ← ih]
    cases line with
    | hunk rest => simp [gather_cons_hunk, flatMap_lines_hunkThen, Line.hunkLines]
    | _ =>
      rw [gather_cons_of_not_hunk (by simp), List.append_assoc]

/-- **No line of a body is lost, and none is moved.** The lines of its hunks, taken together, are
what its lines bring from the first one on that opens a hunk. -/
theorem flatMap_lines_hunks (bareLines : BareLines) (body : List Line) :
    (hunks bareLines body).flatMap Hunk.lines =
      (body.dropWhile (!·.opensHunk)).flatMap (Line.hunkLines bareLines) := by
  rw [hunks, flatMap_lines_hunkThen, flatMap_lines_gather]

theorem exists_of_mem_gather (h : hunk ∈ (gather bareLines body).2) :
    hunk.lines ≠ [] ∧ ∃ rest, .hunk rest ∈ body ∧ hunk.label = label rest := by
  induction body with
  | nil => simp [gather] at h
  | cons line body ih =>
    have hlater (h : hunk ∈ (gather bareLines body).2) :
        hunk.lines ≠ [] ∧ ∃ rest, .hunk rest ∈ line :: body ∧ hunk.label = label rest := by
      obtain ⟨hlines, rest, hrest, hlabel⟩ := ih h
      exact ⟨hlines, rest, List.mem_cons_of_mem _ hrest, hlabel⟩
    cases line with
    | hunk rest =>
      rcases mem_hunkThen_iff.1 h with ⟨hlines, rfl⟩ | h
      · exact ⟨hlines, rest, List.mem_cons_self, rfl⟩
      · exact hlater h
    | _ =>
      rw [gather_cons_of_not_hunk (by simp)] at h
      exact hlater h

/-- **Where a hunk of a body comes from.** It has lines, each of them is what a line of the body
stands for, and its label is read from a mark in the body, unless it has none. -/
theorem exists_of_mem_hunks (h : hunk ∈ hunks bareLines body) :
    hunk.lines ≠ [] ∧
      (∀ hunkLine ∈ hunk.lines, ∃ line ∈ body, hunkLine ∈ line.hunkLines bareLines) ∧
      (hunk.label = none ∨ ∃ rest, .hunk rest ∈ body ∧ hunk.label = label rest) := by
  have hsub := (List.dropWhile_suffix (fun line : Line => !line.opensHunk) (l := body)).subset
  refine ⟨?_, ?_, ?_⟩
  · rcases mem_hunkThen_iff.1 h with ⟨hlines, rfl⟩ | h
    · exact hlines
    · exact (exists_of_mem_gather h).1
  · intro hunkLine hmem
    have hall : hunkLine ∈ (hunks bareLines body).flatMap Hunk.lines :=
      List.mem_flatMap.2 ⟨hunk, h, hmem⟩
    rw [flatMap_lines_hunks] at hall
    obtain ⟨line, hline, hbrings⟩ := List.mem_flatMap.1 hall
    exact ⟨line, hsub hline, hbrings⟩
  · rcases mem_hunkThen_iff.1 h with ⟨-, rfl⟩ | h
    · exact .inl rfl
    · obtain ⟨-, rest, hrest, hlabel⟩ := exists_of_mem_gather h
      exact .inr ⟨rest, hsub hrest, hlabel⟩

/-- A body in which no line opens a hunk has none. -/
theorem hunks_eq_nil (h : ∀ line ∈ body, line.opensHunk = false) : hunks bareLines body = [] := by
  have hnone : body.dropWhile (!·.opensHunk) = [] :=
    List.dropWhile_eq_nil_iff.2 fun line hline => by simp [h line hline]
  rw [hunks, hnone]
  rfl

/-- **A blank line at the end of a body is a line of its last hunk**, so it changes the hunks
unless none is opened. -/
theorem hunks_concat_blank_iff (bareLines : BareLines) (body : List Line) :
    hunks bareLines (body ++ [.blank]) = hunks bareLines body ↔
      ∀ line ∈ body, line.opensHunk = false := by
  constructor
  · intro h
    refine Decidable.byContradiction fun hopen => ?_
    have hopen' : ¬ (body.dropWhile (!·.opensHunk)).isEmpty = true := by
      simpa using hopen
    have hlines := congrArg (List.flatMap Hunk.lines) h
    rw [flatMap_lines_hunks, flatMap_lines_hunks, List.dropWhile_append, if_neg hopen',
      List.flatMap_append] at hlines
    -- The hunks of the longer body have a line more.
    simp [Line.hunkLines, Line.hunkLine?] at hlines
  · intro h
    rw [hunks_eq_nil h, hunks_eq_nil]
    simpa [or_imp, forall_and, Line.opensHunk] using h

end LinePatch.Document
