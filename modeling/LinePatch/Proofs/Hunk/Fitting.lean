import LinePatch.Proofs.Document.Written
import LinePatch.Proofs.Update

/-!
# Hunks that fit the file

A hunk fits a file when the file begins with the lines that the hunk keeps and removes. Walked
along such a file the hunk meets no disagreement, and what it keeps and adds takes the place of
that beginning. Hunks that fit one after the other, written as a document, therefore lead from
the first file to the last one, whatever their lines look like and whatever the settings are.

## Main definitions

* `Hunk.oldTexts`, `Hunk.newTexts`: the two sides of a hunk.
* `Hunk.Fits`: hunks that lead from one file to another.

## Main results

* `Hunk.walk_oldTexts`: a hunk walked along a file that it fits.
* `Hunk.Fits.updateLines_eq`: hunks that fit, applied one after the other.
* `Hunk.Fits.applyDocument_fitting_hunks`: hunks that fit, written as a document and applied.
-/

namespace LinePatch

/-- The text that a line names of the file as it was. -/
def HunkLine.old? : HunkLine → Option String
  | context text | remove text => some text
  | add _ => none

/-- The text that a line names of the file as it becomes. -/
def HunkLine.new? : HunkLine → Option String
  | context text | add text => some text
  | remove _ => none

namespace Hunk

/-- The lines that a hunk keeps and removes. -/
def oldTexts (hunk : Hunk) : List String :=
  hunk.lines.filterMap HunkLine.old?

/-- The lines that a hunk keeps and adds. -/
def newTexts (hunk : Hunk) : List String :=
  hunk.lines.filterMap HunkLine.new?

/-- Hunks that lead from one file to another. Each of them keeps a line, has no label, consists of
texts that can stand as lines, and finds what it keeps and removes at the beginning of the file
that the hunks before it have made. -/
inductive Fits : List String → List Hunk → List String → Prop
  | nil (file : List String) : Fits file [] file
  | cons {hunk : Hunk} {hunks : List Hunk} {rest last : List String}
      (context : hunk.hasContext = true) (unlabelled : hunk.label = none)
      (texts : ∀ line ∈ hunk.lines, Text.IsLine line.text)
      (later : Fits (hunk.newTexts ++ rest) hunks last) :
      Fits (hunk.oldTexts ++ rest) (hunk :: hunks) last

/-- **A hunk walked along a file that begins with its old side** meets no disagreement, and leaves
its new side in place of the old one. -/
theorem walk_oldTexts (index : Nat) (lines : List HunkLine) (rest : List String) :
    walk index lines (lines.filterMap HunkLine.old? ++ rest) =
      ⟨lines.filterMap HunkLine.new? ++ rest, .positional, []⟩ := by
  induction lines generalizing index with
  | nil => rfl
  | cons line lines ih =>
    cases line <;>
      simp [walk, List.filterMap_cons, HunkLine.old?, HunkLine.new?, ih, Application.emit]

theorem applyTo_oldTexts {hunk : Hunk} (h : hunk.hasContext = true) (rest : List String) :
    hunk.applyTo (hunk.oldTexts ++ rest) = ⟨hunk.newTexts ++ rest, .positional, []⟩ := by
  rw [applyTo, if_pos h]
  exact walk_oldTexts 0 hunk.lines rest

namespace Fits

variable {first last : List String} {hunks : List Hunk}

/-- Hunks that fit are applied in both modes without a recovery. -/
theorem updateLines_eq (h : Fits first hunks last) (mode : Mode) (path : String) (index : Nat) :
    updateLines mode path index hunks first =
      ⟨(List.range' index hunks.length).map (.hunkApplied path · .positional), .ok last⟩ := by
  induction h generalizing index with
  | nil file => rfl
  | cons context unlabelled texts later ih =>
    have happly := applyTo_oldTexts context
    rw [updateLines_cons_of_isClean (by rw [happly]; rfl), happly, ih]
    simp [Run.emit, List.range'_succ]

theorem isWritable (h : Fits first hunks last) : ∀ hunk ∈ hunks, hunk.IsWritable := by
  induction h with
  | nil file => simp
  | @cons hunk hunks rest last context unlabelled texts later ih =>
    have hhunk : hunk.IsWritable := by
      refine ⟨?_, ?_⟩
      · rintro hlines
        simp [hasContext, hlines] at context
      · rw [unlabelled]
        decide
    exact List.forall_mem_cons.2 ⟨hhunk, ih⟩

/-- Every line of a document of hunks that fit can stand as a line. -/
theorem isLine_linesOfHunk (h : Fits first hunks last) :
    ∀ line ∈ hunks.flatMap Document.linesOfHunk, Text.IsLine line.text := by
  induction h with
  | nil file => simp
  | @cons hunk hunks rest last context unlabelled texts later ih =>
    rw [List.flatMap_cons, List.forall_mem_append]
    refine ⟨?_, ih⟩
    intro line hline
    rcases List.mem_cons.1 hline with rfl | hline
    · rw [unlabelled]
      decide
    · obtain ⟨hunkLine, hmem, rfl⟩ := List.mem_map.1 hline
      have htext := texts hunkLine hmem
      cases hunkLine <;> exact Text.IsLine.append (by decide) htext

/-- **Hunks that fit a file, written as a document and applied to it.** Let a file consist of
lines, and let hunks lead from it to other lines. The document that asks for these hunks is
applied under all settings to any files of which this is one: the file gets the new lines, nothing
else changes, and each hunk is reported once as having been walked along the file. -/
theorem applyDocument_fitting_hunks (hfits : Fits first hunks last) (settings : Settings)
    (files : Files) {path : String} (hpath : Text.IsLine path) (hfirst : first ≠ [])
    (hlines : ∀ line ∈ first, Text.IsLine line) (hhunks : hunks ≠ [])
    (hfile : files path = some (Text.unlines first)) :
    applyDocument settings files
        (Text.unlines (Document.linesOfActions [.update path hunks])) =
      { events := .parsed 1 ::
          (List.range hunks.length).map (.hunkApplied path · .positional) ++ [.fileUpdated path]
        result := .ok { updated := PathMap.empty.insert path (Text.unlines last) } } := by
  have hdocument : ∀ line ∈ Document.linesOfActions [.update path hunks], Text.IsLine line := by
    intro line hline
    simp only [Document.linesOfActions, List.flatMap_cons, List.flatMap_nil, List.append_nil,
      Document.linesOfAction, List.cons_append, List.map_cons, List.mem_cons, List.mem_append,
      List.mem_map, List.not_mem_nil, or_false] at hline
    rcases hline with rfl | rfl | ⟨line, hline, rfl⟩ | rfl
    · decide
    · exact Text.IsLine.append (by decide) hpath
    · exact hfits.isLine_linesOfHunk line hline
    · decide
  have hactions : Document.actions settings
      (Text.unlines (Document.linesOfActions [.update path hunks])) =
        .ok [.update path hunks] := by
    refine Document.actions_unlines_linesOfActions settings ?_ hdocument
    simpa [Action.IsWritable, hhunks] using hfits.isWritable
  have hupdate : updateText settings.mode path (Text.unlines first) hunks =
      ⟨(List.range hunks.length).map (.hunkApplied path · .positional),
        .ok (Text.unlines last)⟩ := by
    rw [updateText, Text.lines_unlines hfirst hlines, hfits.updateLines_eq, Run.map_ok,
      List.range_eq_range']
  rw [applyDocument, readActions, hactions]
  simp [Run.ofExcept, applyActions, changeList, Action.change, hfile, hupdate, Changes.ofList,
    Changes.record, Change.event]

/-- Lines that look like marks of a document, and empty ones, are kept, removed and added like any
others. -/
theorem applyDocument_fitting_hunks_marks :
    applyDocument { mode := .strict, requireEndMark := true }
        (fun _ => some (Text.unlines ["@@", "", "*** End Patch"]))
        (Text.unlines ["*** Begin Patch", "*** Update File: f", "@@", " @@", "-", "+- x", "@@",
          " @@", " - x", "-*** End Patch", "+", "*** End Patch"]) =
      { events := [.parsed 1, .hunkApplied "f" 0 .positional, .hunkApplied "f" 1 .positional,
          .fileUpdated "f"]
        result := .ok
          { updated := PathMap.empty.insert "f" (Text.unlines ["@@", "- x", ""]) } } := by
  let first : Hunk := ⟨none, [.context "@@", .remove "", .add "- x"]⟩
  let second : Hunk := ⟨none, [.context "@@", .context "- x", .remove "*** End Patch", .add ""]⟩
  have hsecond : Fits ["@@", "- x", "*** End Patch"] [second] ["@@", "- x", ""] :=
    @Fits.cons second [] [] _ rfl rfl (by decide) (.nil _)
  have hboth : Fits ["@@", "", "*** End Patch"] [first, second] ["@@", "- x", ""] :=
    @Fits.cons first [second] ["*** End Patch"] _ rfl rfl (by decide) hsecond
  have hdocument : ["*** Begin Patch", "*** Update File: f", "@@", " @@", "-", "+- x", "@@",
      " @@", " - x", "-*** End Patch", "+", "*** End Patch"] =
        Document.linesOfActions [.update "f" [first, second]] := by decide
  rw [hdocument]
  exact hboth.applyDocument_fitting_hunks { mode := .strict, requireEndMark := true }
    (fun _ => some (Text.unlines ["@@", "", "*** End Patch"])) (by decide) (by decide)
    (by decide) (by decide) rfl

end Fits

end Hunk

end LinePatch
