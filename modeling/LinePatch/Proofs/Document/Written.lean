import LinePatch.Document.Writer
import LinePatch.Proofs.Document.Append
import LinePatch.Proofs.Text.Lines

/-!
# Reading what was written

The lines that stand for actions are read back as these actions, under every setting: a written
line is always told by its mark, every hunk is opened by its own mark, and each section ends where
the head of the next one, or the end mark, begins with three stars.

## Main definitions

* `Hunk.IsWritable`, `Action.IsWritable`: what the lines of a document can say.

## Main results

* `Document.hunks_linesOfHunk`: the hunks of a written body.
* `Document.readSections_linesOfAction`: the actions of written sections.
* `Document.actions_of_lines_eq_append`, `Document.actions_unlines_linesOfActions`: the actions of
  a written document.
-/

namespace LinePatch

/-- A hunk that lines can stand for: it has lines, and its label is the one that is read from what
is written of it. -/
def Hunk.IsWritable (hunk : Hunk) : Prop :=
  hunk.lines ≠ [] ∧ Document.label (Document.labelText hunk.label) = hunk.label

/-- An action that lines can stand for. -/
def Action.IsWritable : Action → Prop
  | .update _ hunks => hunks ≠ [] ∧ ∀ hunk ∈ hunks, hunk.IsWritable
  | .add _ _ | .delete _ => True

namespace Document

/-! ### Lines -/

theorem isMarked_of_mem_linesOfHunk {hunk : Hunk} {line : Line} (h : line ∈ linesOfHunk hunk) :
    line.isMarked = true ∧ line.isBody = true := by
  rcases List.mem_cons.1 h with rfl | h
  · exact ⟨rfl, rfl⟩
  · obtain ⟨hunkLine, -, rfl⟩ := List.mem_map.1 h
    cases hunkLine <;> exact ⟨rfl, rfl⟩

theorem isMarked_of_mem_linesOfAction {action : Action} {line : Line}
    (h : line ∈ linesOfAction action) : line.isMarked = true := by
  cases action with
  | update path hunks =>
    rcases List.mem_cons.1 h with rfl | h
    · rfl
    · obtain ⟨hunk, -, hline⟩ := List.mem_flatMap.1 h
      exact (isMarked_of_mem_linesOfHunk hline).1
  | add path content =>
    rcases List.mem_cons.1 h with rfl | h
    · rfl
    · obtain ⟨text, -, rfl⟩ := List.mem_map.1 h
      rfl
  | delete path =>
    rw [List.mem_singleton.1 h]
    rfl

/-- The kinds of written lines are told from their texts. -/
theorem map_ofText_map_text {lines : List Line} (h : ∀ line ∈ lines, line.isMarked = true) :
    (lines.map Line.text).map Line.ofText = lines := by
  rw [List.map_map]
  exact (List.map_congr_left fun line hline => Line.ofText_text (h line hline)).trans
    (List.map_id lines)

/-! ### Hunks -/

section Hunks

variable (bareLines : BareLines)

/-- The lines of a hunk in front of a body belong to the hunk that the body begins in. -/
theorem gather_map_ofHunkLine (lines : List HunkLine) (body : List Line) :
    gather bareLines (lines.map Line.ofHunkLine ++ body) =
      (lines ++ (gather bareLines body).1, (gather bareLines body).2) := by
  induction lines with
  | nil => rfl
  | cons line lines ih =>
    cases line <;> simp [Line.ofHunkLine, gather, ih, Line.hunkLine?]

/-- Written hunks are gathered one by one. -/
theorem gather_linesOfHunk {list : List Hunk} (h : ∀ hunk ∈ list, hunk.IsWritable) :
    gather bareLines (list.flatMap linesOfHunk) = ([], list) := by
  induction list with
  | nil => rfl
  | cons hunk list ih =>
    obtain ⟨hlines, hlabel⟩ := h hunk List.mem_cons_self
    have hlater := ih fun later hmem => h later (List.mem_cons_of_mem _ hmem)
    rw [List.flatMap_cons, linesOfHunk, List.cons_append, gather, gather_map_ofHunkLine, hlater]
    simp [hunkThen, hlines, hlabel]

/-- **The hunks of a written body are those that were written.** -/
theorem hunks_linesOfHunk {list : List Hunk} (h : ∀ hunk ∈ list, hunk.IsWritable) :
    hunks bareLines (list.flatMap linesOfHunk) = list := by
  have hopen : (list.flatMap linesOfHunk).dropWhile (!·.opensHunk) =
      list.flatMap linesOfHunk := by
    cases list with
    | nil => rfl
    | cons hunk list => rfl
  rw [hunks, hopen, gather_linesOfHunk bareLines h]
  rfl

end Hunks

/-- The content of a written body is what was written, wherever it stands. -/
theorem content_map_added (lineNumber : Nat) (texts : List String) :
    content lineNumber (texts.map .added) = .ok texts := by
  induction texts generalizing lineNumber with
  | nil => rfl
  | cons text texts ih =>
    rw [List.map_cons, content, ih]
    rfl

/-! ### Sections -/

/-- A body reaches down to the first line that does not continue a section. -/
theorem body_append {lines rest : List Line} (hlines : ∀ line ∈ lines, line.isBody = true)
    (hrest : ∀ line ∈ rest.head?, line.isBody = false) :
    body (lines ++ rest) = lines ∧ afterBody (lines ++ rest) = rest := by
  rw [body, afterBody, List.takeWhile_append_of_pos hlines, List.dropWhile_append_of_pos hlines]
  cases rest with
  | nil => exact ⟨List.append_nil lines, rfl⟩
  | cons line rest =>
    have hline : line.isBody = false := hrest line rfl
    simp [hline]

theorem isBody_head?_linesOfAction (actions : List Action) (rest : List Line) :
    ∀ line ∈ (actions.flatMap linesOfAction ++ .endMark :: rest).head?, line.isBody = false := by
  cases actions with
  | nil => simp [Line.isBody]
  | cons action actions => cases action <;> simp [linesOfAction, Line.isBody]

/-- **Written sections in front of an end mark are read as the actions that were written**,
whatever follows the end mark. -/
theorem readSections_linesOfAction (bareLines : BareLines) (atEnd : Option SyntaxError)
    (lineNumber : Nat) (rest : List Line) {list : List Action}
    (h : ∀ action ∈ list, action.IsWritable) :
    readSections bareLines atEnd lineNumber (list.flatMap linesOfAction ++ .endMark :: rest) =
      ⟨list, none⟩ := by
  induction list generalizing lineNumber with
  | nil => simp [readSections]
  | cons action list ih =>
    have hlater (lineNumber : Nat) := ih lineNumber fun later hmem =>
      h later (List.mem_cons_of_mem _ hmem)
    have hhead := isBody_head?_linesOfAction list rest
    rw [List.flatMap_cons, List.append_assoc]
    cases action with
    | update path hunks =>
      obtain ⟨hne, hhunks⟩ := h _ List.mem_cons_self
      have hbody : ∀ line ∈ hunks.flatMap linesOfHunk, line.isBody = true := by
        intro line hline
        obtain ⟨hunk, -, hline⟩ := List.mem_flatMap.1 hline
        exact (isMarked_of_mem_linesOfHunk hline).2
      obtain ⟨hunk, hunks, rfl⟩ := List.exists_cons_of_ne_nil hne
      rw [linesOfAction, List.cons_append, readSections, (body_append hbody hhead).1,
        (body_append hbody hhead).2, hunks_linesOfHunk bareLines hhunks]
      simp only [hlater, Reading.after]
    | add path content =>
      have hbody : ∀ line ∈ (Text.pieces content).map Line.added, line.isBody = true := by
        intro line hline
        obtain ⟨text, -, rfl⟩ := List.mem_map.1 hline
        rfl
      rw [linesOfAction, List.cons_append, readSections, (body_append hbody hhead).1,
        (body_append hbody hhead).2, content_map_added]
      simp only [hlater, Reading.after, Text.unlines_pieces]
    | delete path =>
      rw [linesOfAction, List.cons_append, List.nil_append, readSections, hlater]
      rfl

/-- **The lines of a written document are read as the actions that were written**, whatever
follows them. -/
theorem actions_of_lines_eq_append (settings : Settings) {text : String} {list : List Action}
    {below : List String} (h : ∀ action ∈ list, action.IsWritable)
    (hlines : Text.lines text = linesOfActions list ++ below) :
    actions settings text = .ok list := by
  have hcut : Text.lines text =
      beginMark :: ((list.flatMap linesOfAction ++ [Line.endMark]).map Line.text ++ below) := by
    rw [hlines]
    simp [linesOfActions, Line.text]
  have hkinds : ((list.flatMap linesOfAction ++ [Line.endMark]).map Line.text ++ below).map
        Line.ofText =
      list.flatMap linesOfAction ++ .endMark :: below.map Line.ofText := by
    rw [List.map_append, map_ofText_map_text, List.append_assoc, List.singleton_append]
    intro line hline
    rcases List.mem_append.1 hline with hline | hline
    · obtain ⟨action, -, hline⟩ := List.mem_flatMap.1 hline
      exact isMarked_of_mem_linesOfAction hline
    · rw [List.mem_singleton.1 hline]
      rfl
  have hbegin : Text.beginsWith beginMark beginMark = true := by decide
  rw [actions, read_of_lines_cons hcut, if_pos hbegin, hkinds, readSections_linesOfAction _ _ _ _ h]
  rfl

/-- **A written document is read as the actions that were written.** Its lines must be such that
joining them loses none of them. -/
theorem actions_unlines_linesOfActions (settings : Settings) {list : List Action}
    (h : ∀ action ∈ list, action.IsWritable)
    (hlines : ∀ line ∈ linesOfActions list, Text.IsLine line) :
    actions settings (Text.unlines (linesOfActions list)) = .ok list := by
  have hcut := Text.lines_unlines (by simp [linesOfActions]) hlines
  exact actions_of_lines_eq_append settings h (hcut.trans (List.append_nil _).symm)

end Document

end LinePatch
