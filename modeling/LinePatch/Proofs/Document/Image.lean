import LinePatch.Proofs.Document.Grammar
import LinePatch.Proofs.Document.Hunks
import LinePatch.Proofs.Document.Written
import LinePatch.Proofs.Text.Blank

/-!
# What documents can ask for

Not every list of actions is the reading of a document: a path, a label and a line of a hunk stand
on one line, a hunk has a line, an update has a hunk, and a label is trimmed. Every list that keeps
to this is asked for by the document that is written for it. There a line may end with any
characters, also with a carriage return, as every line has an ending of its own.

## Main definitions

* `Hunk.IsWellFormed`, `Action.IsWellFormed`: what the actions of a document keep to.

## Main results

* `Document.Section.Means.isWellFormed`: what a section asks for is well-formed.
* `Document.lineFeed_not_mem_of_mem_linesOfActions`: what is written of well-formed actions stands
  on single lines.
* `Document.isWellFormed_and_actions_write`: the lists of actions that documents ask for.
-/

namespace LinePatch

/-- A hunk as documents bring it: it has lines, its lines and its label stand on single lines, and
the label is one that trimming leaves as it is. -/
structure Hunk.IsWellFormed (hunk : Hunk) : Prop where
  some : hunk.lines ≠ []
  lines : ∀ line ∈ hunk.lines, '\n' ∉ line.text.toList
  label : ∀ label ∈ hunk.label, label ≠ "" ∧ '\n' ∉ label.toList ∧ Text.trim label = label

/-- An action as documents ask for it. The content of a file that is added can be any text. -/
def Action.IsWellFormed : Action → Prop
  | .update path hunks =>
    '\n' ∉ path.toList ∧ hunks ≠ [] ∧ ∀ hunk ∈ hunks, hunk.IsWellFormed
  | .add path _ | .delete path => '\n' ∉ path.toList

instance (hunk : Hunk) : Decidable hunk.IsWellFormed :=
  decidable_of_iff (hunk.lines ≠ [] ∧ (∀ line ∈ hunk.lines, '\n' ∉ line.text.toList) ∧
      ∀ label ∈ hunk.label, label ≠ "" ∧ '\n' ∉ label.toList ∧ Text.trim label = label)
    ⟨fun h => ⟨h.1, h.2.1, h.2.2⟩, fun h => ⟨h.some, h.lines, h.label⟩⟩

instance : DecidablePred Action.IsWellFormed
  | .update _ _ => inferInstanceAs (Decidable (_ ∧ _ ∧ _))
  | .add _ _ | .delete _ => inferInstanceAs (Decidable (_ ∉ _))

namespace Document

/-! ### Read actions are well-formed -/

/-- A line brings a hunk no characters but its own. -/
theorem mem_text_of_mem_hunkLines {bareLines : BareLines} {line : Line} {hunkLine : HunkLine}
    (h : hunkLine ∈ line.hunkLines bareLines) {c : Char} (hc : c ∈ hunkLine.text.toList) :
    c ∈ line.text.toList := by
  cases line with
  | hunk rest => simp [Line.hunkLines] at h
  | blank =>
    obtain rfl : hunkLine = _ := by simpa [Line.hunkLines, Line.hunkLine?] using h
    exact hc
  | context text | added text | removed text =>
    obtain rfl : hunkLine = _ := by simpa [Line.hunkLines, Line.hunkLine?] using h
    rw [Line.text, String.toList_append]
    exact List.mem_append_right _ hc
  | _ =>
    cases bareLines with
    | skip => simp [Line.hunkLines, Line.hunkLine?] at h
    | context =>
      obtain rfl : hunkLine = _ := by simpa [Line.hunkLines, Line.hunkLine?] using h
      exact hc

/-- The label that is read from a mark is trimmed and has characters. -/
theorem label_eq_some {rest text : String} (h : label rest = some text) :
    text ≠ "" ∧ text = Text.trim rest := by
  unfold label at h
  split at h
  · simp at h
  · obtain rfl := Option.some.inj h
    exact ⟨‹_›, rfl⟩

/-- The hunks of a body whose lines are free of line feeds are well-formed. -/
theorem isWellFormed_of_mem_hunks {bareLines : BareLines} {body : List Line} {hunk : Hunk}
    (hbody : ∀ line ∈ body, '\n' ∉ line.text.toList) (h : hunk ∈ hunks bareLines body) :
    hunk.IsWellFormed := by
  obtain ⟨hsome, hlines, hlabel⟩ := exists_of_mem_hunks h
  refine ⟨hsome, fun hunkLine hmem hfeed => ?_, fun text htext => ?_⟩
  · obtain ⟨line, hline, hbrings⟩ := hlines hunkLine hmem
    exact hbody line hline (mem_text_of_mem_hunkLines hbrings hfeed)
  · rcases hlabel with hnone | ⟨rest, hrest, hlabel⟩
    · simp [hnone] at htext
    · obtain ⟨hne, rfl⟩ := label_eq_some (hlabel.symm.trans htext)
      refine ⟨hne, fun hfeed => hbody _ hrest ?_, Text.trim_trim rest⟩
      rw [Line.text, String.toList_append]
      exact List.mem_append_right _ (Text.mem_of_mem_trim hfeed)

/-- **What a section asks for is well-formed.** -/
theorem Section.Means.isWellFormed {bareLines : BareLines} {part : Section} {action : Action}
    (hpart : ∀ line ∈ part.head :: part.rest, '\n' ∉ line.toList)
    (h : part.Means bareLines action) : action.IsWellFormed := by
  obtain ⟨hhead, hrest⟩ := List.forall_mem_cons.1 hpart
  have hpath {mark path : String} (h : '\n' ∉ (mark ++ path).toList) : '\n' ∉ path.toList := by
    rw [String.toList_append] at h
    exact fun hmem => h (List.mem_append_right _ hmem)
  cases h with
  | @update path rest some =>
    refine ⟨hpath hhead, some, fun hunk hmem => ?_⟩
    rw [← hunks_map_ofText] at hmem
    refine isWellFormed_of_mem_hunks (List.forall_mem_map.2 fun line hline => ?_) hmem
    rw [Line.text_ofText]
    exact hrest line hline
  | add | delete => exact hpath hhead

/-! ### Well-formed actions are read back -/

theorem isWritable_of_isWellFormed {action : Action} (h : action.IsWellFormed) :
    action.IsWritable := by
  cases action with
  | update path hunks =>
    obtain ⟨-, hne, hhunks⟩ := h
    refine ⟨hne, fun hunk hmem => ⟨(hhunks hunk hmem).some, ?_⟩⟩
    cases hlabel : hunk.label with
    | none => decide
    | some text =>
      obtain ⟨hne, -, htrim⟩ := (hhunks hunk hmem).label text hlabel
      rw [labelText, label, Text.trim_space, htrim, if_neg hne]
  | add | delete => exact trivial

/-- A written line is its mark and what follows it, and no mark holds a line feed. -/
theorem lineFeed_not_mem_of_mem_linesOfHunk {hunk : Hunk} (h : hunk.IsWellFormed) {line : Line}
    (hline : line ∈ linesOfHunk hunk) : '\n' ∉ line.text.toList := by
  rcases List.mem_cons.1 hline with rfl | hline
  · cases hlabel : hunk.label with
    | none => decide
    | some text => simp [Line.text, labelText, hunkMark, (h.label text hlabel).2.1]
  · obtain ⟨hunkLine, hmem, rfl⟩ := List.mem_map.1 hline
    have hfeed := h.lines hunkLine hmem
    cases hunkLine <;> simpa [Line.ofHunkLine, Line.text, HunkLine.text] using hfeed

theorem lineFeed_not_mem_of_mem_linesOfAction {action : Action} (h : action.IsWellFormed)
    {line : Line} (hline : line ∈ linesOfAction action) : '\n' ∉ line.text.toList := by
  cases action with
  | update path hunks =>
    obtain ⟨hpath, -, hhunks⟩ := h
    rcases List.mem_cons.1 hline with rfl | hline
    · simpa [Line.text, updateMark] using hpath
    · obtain ⟨hunk, hmem, hline⟩ := List.mem_flatMap.1 hline
      exact lineFeed_not_mem_of_mem_linesOfHunk (hhunks hunk hmem) hline
  | add path content =>
    rcases List.mem_cons.1 hline with rfl | hline
    · simpa [Line.text, addMark, Action.IsWellFormed] using h
    · obtain ⟨piece, hpiece, rfl⟩ := List.mem_map.1 hline
      simpa [Line.text] using Text.lineFeed_not_mem_of_mem_pieces hpiece
  | delete path =>
    rw [List.mem_singleton.1 hline]
    simpa [Line.text, deleteMark, Action.IsWellFormed] using h

/-- **What is written of well-formed actions stands on single lines.** -/
theorem lineFeed_not_mem_of_mem_linesOfActions {list : List Action}
    (h : ∀ action ∈ list, action.IsWellFormed) :
    ∀ line ∈ linesOfActions list, '\n' ∉ line.toList := by
  simp only [linesOfActions, List.cons_append, List.forall_mem_cons, List.forall_mem_append,
    List.forall_mem_map, List.forall_mem_flatMap]
  refine ⟨by decide, fun action haction line hline => ?_, by decide⟩
  exact lineFeed_not_mem_of_mem_linesOfAction (h action haction) hline

/-! ### The lists that documents ask for -/

/-- **The lists of actions that documents ask for**, under every setting: the actions of a document
are well-formed, and well-formed actions are what the document asks for that is written for them
with a carriage return and a line feed behind every line. -/
theorem isWellFormed_and_actions_write (settings : Settings) :
    (∀ text list, actions settings text = .ok list → ∀ action ∈ list, action.IsWellFormed) ∧
      ∀ list : List Action, (∀ action ∈ list, action.IsWellFormed) →
        actions settings (write "\r\n" list) = .ok list := by
  refine ⟨fun text list h action hmem => ?_, fun list h => ?_⟩
  · obtain ⟨-, -, hsections, -⟩ := (actions_eq_ok_iff settings text list).1 h
    obtain ⟨part, hpart, hmeans⟩ := exists_means_of_mem hsections hmem
    refine hmeans.isWellFormed fun line hline => ?_
    exact Text.lineFeed_not_mem_of_mem_lines (mem_of_mem_sections hpart hline)
  · have hlines : Text.lines (write "\r\n" list) = linesOfActions list ++ [""] :=
      Text.lines_join_crlf (lineFeed_not_mem_of_mem_linesOfActions h)
    exact actions_of_lines_eq_append settings
      (fun action hmem => isWritable_of_isWellFormed (h action hmem)) hlines

/-- Texts that look like marks, carriage returns at the ends of lines, and a path and a content
without characters: all of it is well-formed, and all of it is read back. -/
theorem isWellFormed_and_actions_write_marks :
    let list : List Action :=
      [.update "a\r" [⟨some "b c", [.context "*** End Patch", .remove "@@", .add "\r"]⟩,
        ⟨none, [.add ""]⟩], .add "" "", .add "*** End Patch" "x\r\n\n", .delete " "]
    (∀ action ∈ list, action.IsWellFormed) ∧ actions {} (write "\r\n" list) = .ok list := by
  intro list
  obtain ⟨hread, hwrite⟩ := isWellFormed_and_actions_write {}
  have hlist : actions {} (write "\r\n" list) = .ok list := hwrite list (by decide)
  exact ⟨hread _ list hlist, hlist⟩

end Document

end LinePatch
