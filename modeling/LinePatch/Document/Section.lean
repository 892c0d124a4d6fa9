import LinePatch.Document.SyntaxError
import LinePatch.Hunk
import LinePatch.Settings
import LinePatch.Text.Blank

/-!
# Bodies of sections

The lines below the head of a section, up to the next line that begins with three stars. In a
section that updates a file they are the hunks of the update, in a section that adds a file they
are the content of the file.

## Main definitions

* `Document.hunks`: the hunks of a body.
* `Document.content`: the lines of the file that a body adds.
-/

namespace LinePatch.Document

/-- The label that follows the mark of a hunk: what is left without the blanks around it, if
anything is. -/
def label (rest : String) : Option String :=
  if Text.trim rest = "" then none else some (Text.trim rest)

/-- The line of a hunk that a line of the document stands for. A blank line is a kept line
without text. -/
def Line.hunkLine? (bareLines : BareLines) : Line → Option HunkLine
  | .context text => some (.context text)
  | .added text => some (.add text)
  | .removed text => some (.remove text)
  | .blank => some (.context "")
  | line => match bareLines with
    | .skip => none
    | .context => some (.context line.text)

/-- Whether a line opens the first hunk of a body: above it, blank and bare lines are remarks. -/
def Line.opensHunk : Line → Bool
  | .hunk _ | .context _ | .added _ | .removed _ => true
  | _ => false

/-- The hunk with this label and these lines in front of the later ones. A hunk without lines is
left out. -/
def hunkThen (label : Option String) (lines : List HunkLine) (later : List Hunk) : List Hunk :=
  if lines.isEmpty then later else ⟨label, lines⟩ :: later

/-- The lines of the hunk that a body begins in the middle of, and the hunks after it. -/
def gather (bareLines : BareLines) : List Line → List HunkLine × List Hunk
  | [] => ([], [])
  | .hunk rest :: body =>
    let (lines, later) := gather bareLines body
    ([], hunkThen (label rest) lines later)
  | line :: body =>
    let (lines, later) := gather bareLines body
    ((line.hunkLine? bareLines).toList ++ lines, later)

/-- The hunks of a body. Lines above the first mark of a hunk form a hunk without label. -/
def hunks (bareLines : BareLines) (body : List Line) : List Hunk :=
  let (lines, later) := gather bareLines (body.dropWhile (!·.opensHunk))
  hunkThen none lines later

/-- The lines of the file that a body adds, the first line of the body having this number. A
blank line is one of the file. -/
def content (lineNumber : Nat) : List Line → Except SyntaxError (List String)
  | [] => .ok []
  | .added text :: body => (content (lineNumber + 1) body).map (text :: ·)
  | .blank :: body => (content (lineNumber + 1) body).map ("" :: ·)
  | line :: _ => .error ⟨lineNumber, .badContent line.text⟩

end LinePatch.Document
