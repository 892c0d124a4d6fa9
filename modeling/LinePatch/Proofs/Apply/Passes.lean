import LinePatch.Proofs.Apply.Replay

/-!
# Updating a text in two passes

Hunks that are applied to a text one after the other may be applied in two passes, with the text
written down in between: what was written is cut into the lines that it was joined from. For this
the lines must be able to stand as lines of a text, which a hunk does not spoil, as it only brings
lines of its own new side. There must also be a line to write, since a file without lines and one
whose only line is empty are the same text.

## Main results

* `Hunk.mem_lines_applyTo`: where the lines come from that a hunk leaves.
* `Hunk.forall_mem_stage`: what holds of lines at every stage of an update.
* `Hunk.applyAll_append`: two passes compose to one.
-/

namespace LinePatch.Hunk

variable {hunk : Hunk} {hunks : List Hunk} {file : List String} {line : String}

/-- The lines that a hunk adds belong to its new side. -/
theorem mem_newTexts_of_mem_addedTexts (h : line ∈ hunk.addedTexts) : line ∈ hunk.newTexts := by
  obtain ⟨hunkLine, hmem, hadded⟩ := List.mem_filterMap.1 h
  refine List.mem_filterMap.2 ⟨hunkLine, hmem, ?_⟩
  cases hunkLine with
  | add text => exact hadded
  | context text | remove text => exact nomatch hadded

/-- However a hunk is redone, it leaves lines of its new side and lines of the file. -/
theorem mem_redo {strategy : Strategy} {recoveries : Nat}
    (h : line ∈ hunk.redo strategy recoveries file) : line ∈ hunk.newTexts ∨ line ∈ file := by
  cases strategy with
  | positional => exact (List.mem_append.1 h).imp_right List.mem_of_mem_drop
  | prepend => exact (List.mem_append.1 h).imp_left mem_newTexts_of_mem_addedTexts
  | replace start removed =>
    rcases List.mem_append.1 h with h | h
    · exact (List.mem_append.1 h).symm.imp mem_newTexts_of_mem_addedTexts List.mem_of_mem_take
    · exact .inr (List.mem_of_mem_drop h)
  | unmatched => exact .inr h

/-- **A hunk brings no lines but those of its new side.** -/
theorem mem_lines_applyTo (h : line ∈ (hunk.applyTo file).lines) :
    line ∈ hunk.newTexts ∨ line ∈ file :=
  mem_redo (hunk.lines_applyTo_eq_redo file ▸ h)

/-- **What holds of the lines of a file and of all that hunks bring holds at every stage.** -/
theorem forall_mem_stage {p : String → Prop} (hfile : ∀ line ∈ file, p line)
    (hnew : ∀ hunk ∈ hunks, ∀ line ∈ hunk.newTexts, p line) (index : Nat) :
    ∀ line ∈ stage hunks file index, p line := by
  induction hunks generalizing file index with
  | nil => simpa [stage] using hfile
  | cons hunk hunks ih =>
    obtain ⟨hhunk, hhunks⟩ := List.forall_mem_cons.1 hnew
    cases index with
    | zero => exact hfile
    | succ index =>
      have happlied : ∀ line ∈ (hunk.applyTo file).lines, p line := fun line hline =>
        (mem_lines_applyTo hline).elim (hhunk line) (hfile line)
      exact ih happlied hhunks index

/-- The stages of later hunks begin where the earlier hunks end. -/
theorem stage_append (first second : List Hunk) (file : List String) (index : Nat) :
    stage (first ++ second) file (first.length + index) =
      stage second (stage first file first.length) index := by
  simp only [stage, List.take_length_add_append, List.take_length, List.foldl_append]

/-- **Two passes compose to one.** A text is updated, written down, and updated again: as long as
its lines and those that the first pass brings can stand as lines, and the first pass leaves a line,
this is one update with all hunks. -/
theorem applyAll_append {text : String} {first : List Hunk}
    (htext : ∀ line ∈ Text.lines text, line.toList.getLast? ≠ some '\r')
    (hnew : ∀ hunk ∈ first, ∀ line ∈ hunk.newTexts, Text.IsLine line)
    (hleft : stage first (Text.lines text) first.length ≠ []) (second : List Hunk) :
    applyAll second (applyAll first text) = applyAll (first ++ second) text := by
  have hlines : ∀ line ∈ stage first (Text.lines text) first.length, Text.IsLine line := by
    refine forall_mem_stage (fun line hline => ?_) hnew first.length
    exact ⟨Text.lineFeed_not_mem_of_mem_lines hline, htext line hline⟩
  calc applyAll second (applyAll first text)
      = Text.unlines (stage second (Text.lines (applyAll first text)) second.length) :=
        (unlines_stage_length second _).symm
    _ = Text.unlines (stage second (stage first (Text.lines text) first.length)
          second.length) := by
        rw [← unlines_stage_length first, Text.lines_unlines hleft hlines]
    _ = Text.unlines (stage (first ++ second) (Text.lines text) (first ++ second).length) := by
        rw [List.length_append, stage_append]
    _ = applyAll (first ++ second) text := unlines_stage_length (first ++ second) text

/-- The first pass leaves an empty line above the last one, and the second pass replaces the line
that the first one brought. -/
theorem applyAll_append_blank_lines :
    let text := "a\nb\n"
    let first : List Hunk := [⟨none, [.remove "a", .remove "b", .add "", .add "c"]⟩]
    let second : List Hunk := [⟨none, [.context "", .remove "c", .add "d\r"]⟩]
    (∀ line ∈ Text.lines text, line.toList.getLast? ≠ some '\r') ∧
      (∀ hunk ∈ first, ∀ line ∈ hunk.newTexts, Text.IsLine line) ∧
      stage first (Text.lines text) first.length = ["", "c", ""] ∧
      applyAll second (applyAll first text) = applyAll (first ++ second) text ∧
      applyAll (first ++ second) text = "\nd\r\n" := by
  intro text first second
  have htext : ∀ line ∈ Text.lines text, line.toList.getLast? ≠ some '\r' := by decide
  have hnew : ∀ hunk ∈ first, ∀ line ∈ hunk.newTexts, Text.IsLine line := by decide
  have hstage : stage first (Text.lines text) first.length = ["", "c", ""] := by decide +kernel
  have hleft : stage first (Text.lines text) first.length ≠ [] := by simp [hstage]
  exact ⟨htext, hnew, hstage, applyAll_append htext hnew hleft second, by decide +kernel⟩

/-- A file that loses its only line is written down as a text with one empty line. -/
example :
    applyAll [⟨none, [.add "b"]⟩] (applyAll [⟨none, [.remove "a"]⟩] "a") = "b\n" ∧
      applyAll [⟨none, [.remove "a"]⟩, ⟨none, [.add "b"]⟩] "a" = "b" := by
  decide +kernel

end LinePatch.Hunk
