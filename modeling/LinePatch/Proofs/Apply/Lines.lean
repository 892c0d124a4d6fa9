import LinePatch.Proofs.Text.Lines
import LinePatch.Proofs.Update

/-!
# Patches see lines

A patch is applied to lines, and it is read from lines. Of the document nothing counts but its
lines, and of the files nothing but the lines of those that the patch names. So it makes no
difference how the lines of a document or of a file are ended: every line break may be a line feed
alone or a line feed after a carriage return, each of them chosen for itself, and neither the
changes nor an error nor anything that is reported on the way tells which it was.

## Main definitions

* `Text.LineBreak`, `Text.joined`: line breaks, and lines joined by line breaks of any kind.

## Main results

* `Text.lines_joined`: lines that are joined by any line breaks.
* `applyActions_congr`, `applyDocument_congr`: what a patch depends on.
* `applyDocument_joined`: documents and files with any line breaks.
-/

namespace LinePatch

namespace Text

/-- A line break. -/
inductive LineBreak where
  | lineFeed
  | returnLineFeed
  deriving DecidableEq, Repr

/-- The characters of a line break. -/
def LineBreak.text : LineBreak → String
  | lineFeed => "\n"
  | returnLineFeed => "\r\n"

/-- Lines joined by line breaks: the one below the line with the index `i` is `breaks i`. -/
def joined (breaks : Nat → LineBreak) : List String → String
  | [] => ""
  | [line] => line
  | line :: next :: more =>
    line ++ (breaks 0).text ++ joined (fun i => breaks (i + 1)) (next :: more)

/-- What stands above a line break of either kind is a line. -/
theorem lines_append_lineBreak {line : String} (h : IsLine line) (lineBreak : LineBreak)
    (back : String) : lines (line ++ lineBreak.text ++ back) = line :: lines back := by
  cases lineBreak with
  | lineFeed =>
    have hline : lines line = [line] := by
      simpa using lines_unlines (List.cons_ne_nil line []) (by simpa using h)
    change lines (line ++ "\n" ++ back) = _
    rw [lines_append_lineFeed, hline, List.singleton_append]
  | returnLineFeed =>
    have hbreak : line ++ LineBreak.returnLineFeed.text ++ back =
        line ++ "\r" ++ "\n" ++ back := by
      simp [LineBreak.text, ← String.toList_inj]
    rw [hbreak, lines_append_lineFeed, lines_append_return h.1, List.singleton_append]

/-- **Lines that are joined by any line breaks** are the lines that line feeds alone make of
them. -/
theorem lines_joined (breaks : Nat → LineBreak) {list : List String}
    (h : ∀ line ∈ list, IsLine line) : lines (joined breaks list) = lines (unlines list) := by
  cases list with
  | nil => rfl
  | cons line more =>
    rw [lines_unlines (List.cons_ne_nil line more) h]
    induction more generalizing breaks line with
    | nil => simpa [joined] using lines_unlines (List.cons_ne_nil line []) h
    | cons next more ih =>
      obtain ⟨hline, hmore⟩ := List.forall_mem_cons.1 h
      rw [joined, lines_append_lineBreak hline, ih (fun i => breaks (i + 1)) next hmore]

end Text

/-! ### What a patch depends on -/

section

variable {mode : Mode} {files files' : Files}

/-- An action looks at the lines of its own file. -/
theorem Action.change_congr {action : Action}
    (h : (files action.path).map Text.lines = (files' action.path).map Text.lines) :
    action.change mode files = action.change mode files' := by
  have hsome : (files action.path).isSome = (files' action.path).isSome := by
    rw [← Option.isSome_map, h, Option.isSome_map]
  cases action with
  | update path hunks =>
    change (files path).map Text.lines = (files' path).map Text.lines at h
    cases hfile : files path with
    | none =>
      have hfile' : files' path = none := by simpa [hfile] using h.symm
      simp only [change, hfile, hfile']
    | some text =>
      rw [hfile, Option.map_some, eq_comm, Option.map_eq_some_iff] at h
      obtain ⟨text', hfile', hlines⟩ := h
      simp only [change, hfile, hfile', updateText, hlines]
  | add path content =>
    change (files path).isSome = (files' path).isSome at hsome
    simp only [change, hsome]
  | delete path =>
    change (files path).isSome = (files' path).isSome at hsome
    simp only [change, hsome]

/-- **Of the files, a patch looks at those that its actions name**, and of these at their lines. -/
theorem applyActions_congr {actions : List Action}
    (h : ∀ action ∈ actions,
      (files action.path).map Text.lines = (files' action.path).map Text.lines) :
    applyActions mode files actions = applyActions mode files' actions := by
  have hlist : changeList mode files actions = changeList mode files' actions := by
    induction actions with
    | nil => rfl
    | cons action actions ih =>
      obtain ⟨haction, hactions⟩ := List.forall_mem_cons.1 h
      rw [changeList, changeList, Action.change_congr haction, ih hactions]
  rw [applyActions, applyActions, hlist]

/-- A document is read from its lines. -/
theorem readActions_congr {document document' : String}
    (h : Text.lines document = Text.lines document') (settings : Settings) :
    readActions settings document = readActions settings document' := by
  rw [readActions, readActions, Document.actions, Document.actions, Document.read, Document.read,
    h]

/-- **A document and files count by their lines alone.** -/
theorem applyDocument_congr {document document' : String}
    (hdocument : Text.lines document = Text.lines document')
    (hfiles : ∀ path, (files path).map Text.lines = (files' path).map Text.lines)
    (settings : Settings) :
    applyDocument settings files document = applyDocument settings files' document' := by
  have hactions : applyActions settings.mode files = applyActions settings.mode files' :=
    funext fun actions => applyActions_congr fun action _ => hfiles action.path
  rw [applyDocument, applyDocument, readActions_congr hdocument, hactions]

end

/-- **How lines are ended makes no difference.** Let a document and files be given by their lines,
and let every line break in them be of either kind, each for itself. Applying the document is the
same run as with line feeds alone: it reports the same events, and it ends with the same changes or
with the same error. -/
theorem applyDocument_joined (settings : Settings) {document : List String}
    {files : String → Option (List String)} (hdocument : ∀ line ∈ document, Text.IsLine line)
    (hfiles : ∀ path lines, files path = some lines → ∀ line ∈ lines, Text.IsLine line)
    (documentBreaks : Nat → Text.LineBreak) (fileBreaks : String → Nat → Text.LineBreak) :
    applyDocument settings (fun path => (files path).map (Text.joined (fileBreaks path)))
        (Text.joined documentBreaks document) =
      applyDocument settings (fun path => (files path).map Text.unlines)
        (Text.unlines document) := by
  refine applyDocument_congr (Text.lines_joined documentBreaks hdocument) (fun path => ?_) settings
  cases hlines : files path with
  | none => rfl
  | some lines =>
    rw [Option.map_some, Option.map_some, Option.map_some, Option.map_some,
      Text.lines_joined (fileBreaks path) (hfiles path lines hlines)]

/-- Both kinds of line breaks stand in the document and in the file, also below lines without
characters. -/
theorem applyDocument_joined_both_breaks :
    let document := ["*** Begin Patch", "*** Update File: f", "@@", "", "-b", "*** End Patch"]
    let files : String → Option (List String) := fun path =>
      if path = "f" then some ["", "b", ""] else none
    let breaks : Nat → Text.LineBreak := fun i => if i % 2 = 0 then .returnLineFeed else .lineFeed
    (∀ line ∈ document, Text.IsLine line) ∧
    (∀ path lines, files path = some lines → ∀ line ∈ lines, Text.IsLine line) ∧
    Text.joined breaks document =
      "*** Begin Patch\r\n*** Update File: f\n@@\r\n\n-b\r\n*** End Patch" ∧
    (files "f").map (Text.joined breaks) = some "\r\nb\n" ∧
    applyDocument { mode := .strict } (fun path => (files path).map (Text.joined breaks))
        (Text.joined breaks document) =
      applyDocument { mode := .strict } (fun path => (files path).map Text.unlines)
        (Text.unlines document) := by
  intro document files breaks
  have hdocument : ∀ line ∈ document, Text.IsLine line := by decide
  have hfiles : ∀ path lines, files path = some lines → ∀ line ∈ lines, Text.IsLine line := by
    intro path lines hlines
    rw [Option.ite_none_right_eq_some, Option.some.injEq] at hlines
    obtain ⟨-, rfl⟩ := hlines
    decide
  exact ⟨hdocument, hfiles, by decide, by decide,
    applyDocument_joined { mode := .strict } hdocument hfiles breaks fun _ => breaks⟩

end LinePatch
