import LinePatch.Apply
import LinePatch.Proofs.Run

/-!
# Updating a file hunk by hunk

What one hunk does to the file and to the report, before the hunks after it are looked at: it is
applied and reported, unless the mode is strict and the hunk needs a recovery.

## Main results

* `updateLines_cons_of_applied`, `updateLines_cons_of_strict`: the first hunk of an update.
* `updateText_result_eq_ok_iff`: what becomes of a text.
-/

namespace LinePatch

variable {hunk : Hunk} {file : List String}

theorem Application.isClean_iff {application : Application} :
    application.isClean = true ↔ application.recoveries = [] :=
  List.isEmpty_iff

theorem Application.not_isClean_of_head? {application : Application} {recovery : Recovery}
    (h : application.recoveries.head? = some recovery) : ¬ application.isClean = true := by
  rw [Application.isClean_iff]
  intro hnone
  simp [hnone] at h

/-- A hunk that is not refused is applied and reported, and the hunks after it follow. -/
theorem updateLines_cons_of_applied {mode : Mode}
    (h : mode = .lenient ∨ (hunk.applyTo file).isClean = true) (path : String) (hunkIndex : Nat)
    (hunks : List Hunk) :
    updateLines mode path hunkIndex (hunk :: hunks) file =
      (Run.emit ((hunk.applyTo file).events path hunkIndex) >>= fun _ =>
        updateLines mode path (hunkIndex + 1) hunks (hunk.applyTo file).lines) := by
  rcases h with rfl | h
  · rfl
  · rw [Application.isClean_iff] at h
    cases mode <;> simp only [updateLines, h]

/-- A hunk that needs no recovery is applied and reported in both modes. -/
theorem updateLines_cons_of_isClean (h : (hunk.applyTo file).isClean = true) (mode : Mode)
    (path : String) (hunkIndex : Nat) (hunks : List Hunk) :
    updateLines mode path hunkIndex (hunk :: hunks) file =
      (Run.emit [.hunkApplied path hunkIndex (hunk.applyTo file).strategy] >>= fun _ =>
        updateLines mode path (hunkIndex + 1) hunks (hunk.applyTo file).lines) := by
  rw [updateLines_cons_of_applied (.inr h), Application.events, Application.isClean_iff.1 h]
  rfl

/-- In strict mode a hunk that needs a recovery is refused on account of its first one, and
nothing is reported. -/
theorem updateLines_cons_of_strict {recovery : Recovery} {more : List Recovery}
    (h : (hunk.applyTo file).recoveries = recovery :: more) (path : String) (hunkIndex : Nat)
    (hunks : List Hunk) :
    updateLines .strict path hunkIndex (hunk :: hunks) file =
      .ofExcept (.error (.hunkRejected path hunkIndex recovery)) := by
  simp only [updateLines, h]

/-- A text is updated by way of its lines. -/
theorem updateText_result_eq_ok_iff {mode : Mode} {path text updated : String}
    {hunks : List Hunk} :
    (updateText mode path text hunks).result = .ok updated ↔
      ∃ lines, (updateLines mode path 0 hunks (Text.lines text)).result = .ok lines ∧
        Text.unlines lines = updated := by
  unfold updateText
  rcases updateLines mode path 0 hunks (Text.lines text) with ⟨events, error | lines⟩
  · simp
  · simp

end LinePatch
