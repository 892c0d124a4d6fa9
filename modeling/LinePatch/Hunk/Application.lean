import LinePatch.Hunk
import LinePatch.Hunk.Recovery
import LinePatch.Text.Lines

/-!
# Applying hunks to lines

A hunk that names a kept line is walked along the file from its first line: kept and removed
lines are matched one after the other, and what the hunk does not reach stays as it is. A hunk
without kept lines has no place of its own. It is put where its first removed line stands, and
the whole of its first run of removals gives way to its added lines; without removals its added
lines come before the file.

## Main definitions

* `Strategy`, `Application`: the way a hunk was applied, and what came of it.
* `Hunk.applyTo`: a hunk applied to the lines of a file.
* `Hunk.applyAll`: hunks applied to a text one after the other, every recovery tolerated.
-/

namespace LinePatch

/-- The way a hunk was applied. -/
inductive Strategy where
  /-- The hunk was walked along the file from its first line. -/
  | positional
  /-- The added lines were put before the file. -/
  | prepend
  /-- The added lines took the place of `removed` lines from the line with index `start`. The
  count is that of the hunk, also where the file ends sooner. -/
  | replace (start removed : Nat)
  /-- The place of the hunk was not found, and the file stayed as it was. -/
  | unmatched
  deriving DecidableEq, Repr, Inhabited

/-- What came of applying a hunk: the lines of the file, and the recoveries in the order of the
hunk. -/
structure Application where
  lines : List String
  strategy : Strategy
  recoveries : List Recovery
  deriving DecidableEq, Repr, Inhabited

namespace Application

/-- Hunk and file agreed throughout. -/
def isClean (application : Application) : Bool :=
  application.recoveries.isEmpty

/-- The application with one more line in front. -/
def emit (text : String) (application : Application) : Application :=
  { application with lines := text :: application.lines }

/-- The application with one more recovery in front. -/
def report (recovery : Recovery) (application : Application) : Application :=
  { application with recoveries := recovery :: application.recoveries }

end Application

namespace Hunk

/-- Walks the lines of a hunk, the first of which has the index `index`, along the rest of a
file. A line that does not match leaves the file where it is. -/
def walk (index : Nat) : List HunkLine → List String → Application
  | [], file => ⟨file, .positional, []⟩
  | .add text :: hunk, file => (walk (index + 1) hunk file).emit text
  | .context text :: hunk, file =>
    if file.head? = some text then
      (walk (index + 1) hunk file.tail).emit text
    else
      (walk (index + 1) hunk file).emit text |>.report (.contextMismatch index text file.head?)
  | .remove text :: hunk, file =>
    if file.head? = some text then
      walk (index + 1) hunk file.tail
    else
      (walk (index + 1) hunk file).report (.removalSkipped index text file.head?)

/-- Puts the added lines of a hunk in the place of its first run of removals. The run is found
by its first line, and is as long as the hunk says. -/
def replaceIn (hunk : Hunk) (file : List String) : Application :=
  match hunk.firstRemovals with
  | [] => ⟨hunk.addedTexts ++ file, .prepend, []⟩
  | expected :: more =>
    match file.idxOf? expected with
    | none => ⟨file, .unmatched, [.removalNotFound expected]⟩
    | some start =>
      let removed := more.length + 1
      ⟨file.take start ++ hunk.addedTexts ++ file.drop (start + removed),
        .replace start removed, []⟩

/-- Applies a hunk to the lines of a file. -/
def applyTo (hunk : Hunk) (file : List String) : Application :=
  if hunk.hasContext then walk 0 hunk.lines file else hunk.replaceIn file

/-- Applies hunks to a text one after the other, whatever recoveries that takes. -/
def applyAll (hunks : List Hunk) (text : String) : String :=
  Text.unlines (hunks.foldl (fun file hunk => (hunk.applyTo file).lines) (Text.lines text))

end Hunk

end LinePatch
