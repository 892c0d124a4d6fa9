import LinePatch.Changes
import LinePatch.Command.Refusal
import LinePatch.Tree.Edit

/-!
# Committing changes to a tree

Changes are brought into a tree in phases. First every path is checked, and nothing is touched
if one check fails. Then the directories of all new texts are made, then the texts are put in
their places, then files are deleted. A fault ends the commit where it occurs, and what was done
before it stays.

## Main definitions

* `Commit.target`: the path of a file inside the directory that the patch is for.
* `Commit.Plan`, `Commit.plan`: what is to be done once all checks have succeeded.
* `Commit.Outcome`: what came of the work on a tree.
* `commit`: brings changes into a tree.
-/

namespace LinePatch

namespace Commit

/-- The path inside the directory that the patch is for. -/
def target (root path : String) : Except Refusal String :=
  match Path.within? root path with
  | some full => .ok full
  | none => .error (.outside path)

/-- Checks that a file may be written: nothing else stands there, and the nearest directory on
the way that there is is one. -/
def checkWrite (tree : Tree) (path : String) : Except Refusal Unit :=
  if (tree.nodeAt? path).isSome && !tree.isFile path then .error (.notOverwritten path)
  else
    match (Path.ancestors path).find? fun above => (tree.nodeAt? above).isSome with
    | some above =>
      if tree.isDirectory above then .ok () else .error (.obstructed path above)
    | none => .ok ()

/-- A text and the path that it is written to. -/
structure Write where
  path : String
  text : String
  deriving DecidableEq, Repr

/-- The directory of a written file, and the ones around it. -/
def Write.directories (write : Write) : String × List String :=
  match Path.ancestors write.path with
  | [] => (".", ["."])
  | nearest :: outer => (nearest, nearest :: outer)

/-- What is to be done. -/
structure Plan where
  writes : List Write
  deletions : List String
  deriving DecidableEq, Repr

/-- Checks a text that should be written. -/
def planWrite (tree : Tree) (root : String) (entry : String × String) : Except Refusal Write := do
  let full ← target root entry.1
  checkWrite tree full
  return ⟨full, entry.2⟩

/-- Checks a file that should be deleted. -/
def planDeletion (tree : Tree) (root path : String) : Except Refusal String := do
  let full ← target root path
  if tree.isFile full then return full else throw (.notDeletable full)

/-- Checks all changes: the updated files, the added ones, the deleted ones. -/
def plan (tree : Tree) (root : String) (changes : Changes) : Except Refusal Plan := do
  let entries := changes.updated.entries ++ changes.added.entries
  let writes ← entries.mapM (planWrite tree root)
  let deletions ← changes.deleted.paths.mapM (planDeletion tree root)
  return ⟨writes, deletions⟩

/-- What has been done to a file. -/
inductive Deed where
  | written (path : String)
  | deleted (path : String)
  deriving DecidableEq, Repr

/-- What came of the work on a tree: the tree, what has been done to its files, and what ended the
work, if it did not come to its end. -/
structure Outcome where
  tree : Tree
  deeds : List Deed
  refusal? : Option Refusal

namespace Outcome

/-- The outcome with one more deed in front. -/
def after (deed : Deed) (outcome : Outcome) : Outcome :=
  { outcome with deeds := deed :: outcome.deeds }

/-- One phase, and the next one if nothing ended the work. -/
def andThen (outcome : Outcome) (next : Tree → Outcome) : Outcome :=
  match outcome.refusal? with
  | none =>
    let later := next outcome.tree
    { later with deeds := outcome.deeds ++ later.deeds }
  | some _ => outcome

end Outcome

/-- Makes the directories of written files. -/
def makeDirectories (tree : Tree) : List Write → Outcome
  | [] => ⟨tree, [], none⟩
  | write :: writes =>
    match tree.makeDirectories write.directories.2 with
    | (tree, none) => makeDirectories tree writes
    | (tree, some fault) => ⟨tree, [], some (.directoryNotMade write.directories.1 fault)⟩

/-- Puts written files in their places. -/
def placeFiles (tree : Tree) : List Write → Outcome
  | [] => ⟨tree, [], none⟩
  | write :: writes =>
    match tree.placeFile write.path write.text.toUTF8 with
    | .ok tree => (placeFiles tree writes).after (.written write.path)
    | .error fault => ⟨tree, [], some (.fileNotWritten write.path fault)⟩

/-- Deletes files. -/
def deleteFiles (tree : Tree) : List String → Outcome
  | [] => ⟨tree, [], none⟩
  | path :: paths =>
    match tree.removeFile path with
    | .ok tree => (deleteFiles tree paths).after (.deleted path)
    | .error fault => ⟨tree, [], some (.fileNotDeleted path fault)⟩

/-- Does what is to be done. -/
def Plan.carryOut (plan : Plan) (tree : Tree) : Outcome :=
  (makeDirectories tree plan.writes).andThen fun tree =>
    (placeFiles tree plan.writes).andThen fun tree => deleteFiles tree plan.deletions

end Commit

/-- Brings changes into the directory `root` of a tree. -/
def commit (root : String) (changes : Changes) (tree : Tree) : Commit.Outcome :=
  match Commit.plan tree root changes with
  | .error refusal => ⟨tree, [], some refusal⟩
  | .ok plan => plan.carryOut tree

end LinePatch
