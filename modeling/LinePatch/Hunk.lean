/-!
# Hunks

A hunk is a stretch of lines, each of which the file is expected to keep, gains or loses. Its
label is a remark for the reader: it plays no part in finding the place of the hunk.

## Main definitions

* `HunkLine`, `Hunk`: the lines of a hunk, and a hunk with its label.
* `Hunk.hasContext`: whether the hunk names a line that the file keeps.
* `Hunk.addedTexts`: the texts that the file gains.
* `Hunk.firstRemovals`: the texts of the first unbroken run of removed lines.
-/

namespace LinePatch

/-- A line of a hunk. -/
inductive HunkLine where
  /-- A line that the file has and keeps. -/
  | context (text : String)
  /-- A line that the file gains. -/
  | add (text : String)
  /-- A line that the file has and loses. -/
  | remove (text : String)
  deriving DecidableEq, Repr, Inhabited

namespace HunkLine

/-- The text of a line, whatever becomes of it. -/
def text : HunkLine → String
  | context text | add text | remove text => text

def isContext : HunkLine → Bool
  | context _ => true
  | _ => false

def isRemove : HunkLine → Bool
  | remove _ => true
  | _ => false

/-- The text that the file gains by a line. -/
def added? : HunkLine → Option String
  | add text => some text
  | _ => none

end HunkLine

/-- A labelled stretch of lines. -/
structure Hunk where
  label : Option String
  lines : List HunkLine
  deriving DecidableEq, Repr, Inhabited

namespace Hunk

/-- Whether the hunk names a line that the file keeps. -/
def hasContext (hunk : Hunk) : Bool :=
  hunk.lines.any HunkLine.isContext

/-- The texts that the file gains, in order. -/
def addedTexts (hunk : Hunk) : List String :=
  hunk.lines.filterMap HunkLine.added?

/-- The texts of the first unbroken run of removed lines. -/
def firstRemovals (hunk : Hunk) : List String :=
  ((hunk.lines.dropWhile (!·.isRemove)).takeWhile HunkLine.isRemove).map HunkLine.text

end Hunk

end LinePatch
