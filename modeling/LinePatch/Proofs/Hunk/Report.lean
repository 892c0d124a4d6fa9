import LinePatch.Proofs.Hunk.Balance
import LinePatch.Proofs.Hunk.Reach

/-!
# What a report accounts for

A hunk that is walked along a file writes each of its kept lines, also where the file shows another
one, and leaves standing the removed lines that it does not come across. Both are recoveries, and
there are no others. So how often a line stands in the file after the walk is told by the file, the
hunk and the report, and not by the way the walk went: no line is lost that the hunk does not name
as removed, and a line that there is more of than the hunk asks for is reported.

## Main definitions

* `Hunk.keptTexts`: the lines that a hunk names as kept.
* `Application.mismatched`, `Application.skipped`: the kept and the removed lines of a hunk that are
  reported.
* `Hunk.IsAccounted`: what comes of a hunk, accounted for by its report.

## Main results

* `Hunk.mismatched_walk_sublist`, `Hunk.skipped_walk_sublist`: a report names lines of the hunk, and
  each of them once.
* `Hunk.count_expected_walk`: nothing but kept and removed lines is reported.
* `Hunk.isAccounted_applyTo`: the report on a hunk that keeps a line.
-/

namespace LinePatch

/-- The text of a line that is kept. -/
def HunkLine.kept? : HunkLine → Option String
  | context text => some text
  | _ => none

namespace Recovery

/-- The text of a kept line that the file does not show. -/
def mismatched? : Recovery → Option String
  | contextMismatch _ expected _ => some expected
  | _ => none

/-- The text of a removed line that the file does not show. -/
def skipped? : Recovery → Option String
  | removalSkipped _ expected _ => some expected
  | _ => none

/-- What recoveries expected that are about lines of a hunk. -/
theorem count_expected {recoveries : List Recovery}
    (h : ∀ recovery ∈ recoveries, ∃ hunkLine, recovery.hunkLine? = some hunkLine) (text : String) :
    (recoveries.map expected).count text =
      (recoveries.filterMap mismatched?).count text +
        (recoveries.filterMap skipped?).count text := by
  induction recoveries with
  | nil => rfl
  | cons recovery recoveries ih =>
    obtain ⟨⟨hunkLine, hhunkLine⟩, hlater⟩ := List.forall_mem_cons.1 h
    have hcount := ih hlater
    cases recovery with
    | contextMismatch hunkLine missing found | removalSkipped hunkLine missing found =>
      simp only [List.map_cons, List.filterMap_cons, expected, mismatched?, skipped?,
        List.count_cons]
      omega
    | removalNotFound missing => cases hhunkLine

end Recovery

namespace Application

/-- The kept lines of a hunk that are reported, in order. -/
def mismatched (application : Application) : List String :=
  application.recoveries.filterMap Recovery.mismatched?

/-- The removed lines of a hunk that are reported, in order. -/
def skipped (application : Application) : List String :=
  application.recoveries.filterMap Recovery.skipped?

end Application

namespace Hunk

/-- The lines that a hunk names as kept. -/
def keptTexts (hunk : Hunk) : List String :=
  hunk.lines.filterMap HunkLine.kept?

/-! ### The report on a walk -/

variable (index : Nat) (lines : List HunkLine) (file : List String) (text : String)

/-- **The reported kept lines are kept lines of the hunk**, in its order and each of them once. -/
theorem mismatched_walk_sublist :
    (walk index lines file).mismatched.Sublist (lines.filterMap HunkLine.kept?) := by
  fun_induction walk index lines file with
  | case1 => exact List.nil_sublist _
  | case2 index added lines file ih => exact ih
  | case3 index kept lines file hfound ih => exact ih.cons kept
  | case4 index kept lines file hfound ih => exact ih.cons_cons kept
  | case5 index removed lines file hfound ih | case6 index removed lines file hfound ih => exact ih

/-- **The reported removed lines are removed lines of the hunk**, in its order and each of them
once. -/
theorem skipped_walk_sublist :
    (walk index lines file).skipped.Sublist (lines.filterMap HunkLine.removed?) := by
  fun_induction walk index lines file with
  | case1 => exact List.nil_sublist _
  | case2 index added lines file ih => exact ih
  | case3 index kept lines file hfound ih | case4 index kept lines file hfound ih => exact ih
  | case5 index removed lines file hfound ih => exact ih.cons removed
  | case6 index removed lines file hfound ih => exact ih.cons_cons removed

/-- Nothing else is reported. -/
theorem count_expected_walk :
    ((walk index lines file).recoveries.map Recovery.expected).count text =
      (walk index lines file).mismatched.count text +
        (walk index lines file).skipped.count text :=
  Recovery.count_expected (fun _ => hunkLine?_of_mem_recoveries_walk) text

/-- What a hunk writes are its kept and its added lines. -/
theorem count_new :
    (lines.filterMap HunkLine.new?).count text =
      (lines.filterMap HunkLine.kept?).count text +
        (lines.filterMap HunkLine.added?).count text := by
  induction lines with
  | nil => rfl
  | cons line lines ih =>
    cases line with
    | context kept =>
      simp only [List.filterMap_cons, HunkLine.new?, HunkLine.kept?, HunkLine.added?,
        List.count_cons, ih]
      exact Nat.add_right_comm ..
    | add added =>
      simp only [List.filterMap_cons, HunkLine.new?, HunkLine.kept?, HunkLine.added?,
        List.count_cons, ih]
      exact Nat.add_assoc ..
    | remove removed => exact ih

/-! ### The account -/

/-- What comes of a hunk, accounted for by its report. -/
structure IsAccounted (hunk : Hunk) (file : List String) (application : Application) : Prop where
  /-- A removed line is reported for a line that the hunk names as removed. -/
  skipped : application.skipped.Sublist hunk.removedTexts
  /-- A kept line is reported for a line that the hunk names as kept. -/
  mismatched : application.mismatched.Sublist hunk.keptTexts
  /-- What is named as removed and not reported was in the file. -/
  removed_le : ∀ text,
    hunk.removedTexts.count text - application.skipped.count text ≤ file.count text
  /-- It goes away, and what the hunk adds comes with the reported kept lines. -/
  count_lines : ∀ text, application.lines.count text =
    file.count text + hunk.addedTexts.count text + application.mismatched.count text -
      (hunk.removedTexts.count text - application.skipped.count text)
  /-- No line is lost that is not named as removed. -/
  kept : ∀ text, text ∉ hunk.removedTexts → file.count text ≤ application.lines.count text
  /-- A line that there is more of than the file, without the removed lines and with the added ones,
  would have is reported. -/
  reported : ∀ text, file.count text + hunk.addedTexts.count text <
      application.lines.count text + hunk.removedTexts.count text →
    text ∈ application.mismatched ∨ text ∈ application.skipped

/-- **The report on a hunk that keeps a line accounts for every line of the file.** -/
theorem isAccounted_applyTo {hunk : Hunk} (h : hunk.hasContext = true) (file : List String) :
    hunk.IsAccounted file (hunk.applyTo file) := by
  rw [applyTo, if_pos h]
  have hskipped := skipped_walk_sublist 0 hunk.lines file
  have hmismatched := mismatched_walk_sublist 0 hunk.lines file
  -- Everything that is written stands in the file, so what is removed can be bounded.
  have hwritten (text : String) :
      hunk.keptTexts.count text + hunk.addedTexts.count text ≤
        (walk 0 hunk.lines file).lines.count text := by
    rw [lines_walk, List.count_append, count_new]
    exact Nat.le_add_right _ _
  have hcount (text : String) :
      (walk 0 hunk.lines file).lines.count text + hunk.removedTexts.count text =
        file.count text + hunk.addedTexts.count text +
          ((walk 0 hunk.lines file).mismatched.count text +
            (walk 0 hunk.lines file).skipped.count text) := by
    rw [← count_expected_walk]
    exact count_walk text 0 hunk.lines file
  have hbounds (text : String) :
      (walk 0 hunk.lines file).skipped.count text ≤ hunk.removedTexts.count text ∧
        (walk 0 hunk.lines file).mismatched.count text ≤ hunk.keptTexts.count text :=
    ⟨hskipped.count_le text, hmismatched.count_le text⟩
  refine ⟨hskipped, hmismatched, fun text => ?_, fun text => ?_, fun text hnot => ?_,
    fun text hmore => ?_⟩
  · have := hwritten text
    have := hcount text
    have := hbounds text
    omega
  · have := hcount text
    have := hbounds text
    omega
  · have := hcount text
    have hnone : hunk.removedTexts.count text = 0 := List.count_eq_zero.2 hnot
    have := hbounds text
    omega
  · have := hcount text
    rw [← List.count_pos_iff, ← List.count_pos_iff]
    omega

/-- A line that the file has twice is kept three times and removed after that: the third one is
written in addition, its removal is skipped, and the line below it still goes away. -/
theorem isAccounted_applyTo_repeated_line :
    let hunk : Hunk :=
      ⟨none, [.context "a", .context "a", .context "a", .remove "a", .remove "b"]⟩
    let application : Application := ⟨["a", "a", "a"], .positional,
      [.contextMismatch 2 "a" (some "b"), .removalSkipped 3 "a" (some "b")]⟩
    hunk.hasContext = true ∧ hunk.applyTo ["a", "a", "b"] = application ∧
      hunk.IsAccounted ["a", "a", "b"] application := by
  intro hunk application
  have hcontext : hunk.hasContext = true := rfl
  have happlied : hunk.applyTo ["a", "a", "b"] = application := by decide
  exact ⟨hcontext, happlied, happlied ▸ isAccounted_applyTo hcontext ["a", "a", "b"]⟩

end Hunk

end LinePatch
