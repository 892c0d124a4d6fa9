import LinePatch.Changes
import LinePatch.Document.Reader
import LinePatch.PatchError
import LinePatch.Run

/-!
# Applying patches

Every action of a patch is judged and carried out against the files as they were supplied, never
against what an earlier action of the same patch made of them. The first action that fails
refuses the patch. What became of the files is reported when all actions have succeeded.

## Main definitions

* `Files`: the texts that are supplied, by path.
* `updateText`: a text updated hunk by hunk.
* `Action.change`: the change that one action makes.
* `applyActions`, `applyDocument`: the changes that a patch makes.
-/

namespace LinePatch

/-- The texts of the files that there are. -/
abbrev Files : Type := String → Option String

/-- Applies hunks, the first of which has the index `hunkIndex`, to the lines of a file one after
the other. In strict mode the first recovery refuses the hunk that needs it, and nothing is
reported about that hunk. -/
def updateLines (mode : Mode) (path : String) (hunkIndex : Nat) :
    List Hunk → List String → Run PatchError (List String)
  | [], file => pure file
  | hunk :: hunks, file =>
    let application := hunk.applyTo file
    match mode, application.recoveries with
    | .strict, recovery :: _ => .ofExcept (.error (.hunkRejected path hunkIndex recovery))
    | _, _ => do
      Run.emit (application.events path hunkIndex)
      updateLines mode path (hunkIndex + 1) hunks application.lines

/-- Applies hunks to a text. -/
def updateText (mode : Mode) (path text : String) (hunks : List Hunk) : Run PatchError String :=
  Text.unlines <$> updateLines mode path 0 hunks (Text.lines text)

/-- The change that an action makes to the supplied files. -/
def Action.change (mode : Mode) (files : Files) : Action → Run PatchError Change
  | .update path hunks =>
    match files path with
    | none => .ofExcept (.error (.missingFile path))
    | some text => .updated path <$> updateText mode path text hunks
  | .add path content =>
    .ofExcept (if (files path).isSome then .error (.fileExists path)
      else .ok (.added path content))
  | .delete path =>
    .ofExcept (if (files path).isSome then .ok (.deleted path)
      else .error (.missingFile path))

/-- The changes that actions make to the supplied files, up to the first failure. -/
def changeList (mode : Mode) (files : Files) : List Action → Run PatchError (List Change)
  | [] => pure []
  | action :: actions => do
    let change ← action.change mode files
    let changes ← changeList mode files actions
    pure (change :: changes)

/-- The report that a patch was refused. -/
def rejection (error : PatchError) : List Event :=
  [.rejected error.message]

/-- Carries out the actions of a patch. -/
def applyActions (mode : Mode) (files : Files) (actions : List Action) :
    Run PatchError Changes :=
  Changes.ofList <$> (changeList mode files actions).andReport (·.map Change.event) rejection

/-- Reads a document and reports on it. -/
def readActions (settings : Settings) (document : String) : Run PatchError (List Action) :=
  (Run.ofExcept (Document.actions settings document)).mapError .syntaxError
    |>.andReport (fun actions => [.parsed actions.length]) rejection

/-- Reads a document and carries out its actions. -/
def applyDocument (settings : Settings) (files : Files) (document : String) :
    Run PatchError Changes := do
  let actions ← readActions settings document
  applyActions settings.mode files actions

end LinePatch
