import LinePatch.Action
import LinePatch.Document.Line

/-!
# Writing documents

Actions are written as the lines of a document between its two marks: the head of a section, and
below it the hunks or the content that it brings. Every hunk is opened by its mark, also one
without label, so that two hunks never run together.

## Main definitions

* `Document.linesOfHunk`, `Document.linesOfAction`: the lines that stand for a part of a patch.
* `Document.linesOfActions`: the lines of a whole document.
* `Document.write`: a document with a given ending after each line.
-/

namespace LinePatch.Document

/-- The line of a document that stands for a line of a hunk. -/
def Line.ofHunkLine : HunkLine → Line
  | .context text => .context text
  | .add text => .added text
  | .remove text => .removed text

/-- What follows the mark of a hunk with this label. -/
def labelText : Option String → String
  | none => ""
  | some label => " " ++ label

/-- The lines that stand for a hunk. -/
def linesOfHunk (hunk : Hunk) : List Line :=
  .hunk (labelText hunk.label) :: hunk.lines.map Line.ofHunkLine

/-- The section that stands for an action. -/
def linesOfAction : Action → List Line
  | .update path hunks => .update path :: hunks.flatMap linesOfHunk
  | .add path content => .add path :: (Text.pieces content).map .added
  | .delete path => [.delete path]

/-- The lines of the document that asks for actions. -/
def linesOfActions (actions : List Action) : List String :=
  beginMark :: (actions.flatMap linesOfAction).map Line.text ++ [endMark]

/-- The document that asks for actions, every line of which has this ending. -/
def write (lineEnding : String) (actions : List Action) : String :=
  String.join ((linesOfActions actions).map (· ++ lineEnding))

end LinePatch.Document
