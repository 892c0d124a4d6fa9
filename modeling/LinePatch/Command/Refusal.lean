import LinePatch.PatchError
import LinePatch.Tree.Fault

/-!
# Refusals of a command

Why a command ends without having done what it was asked for.

## Main definitions

* `Refusal`, `Refusal.message`: the reasons and their wording.
-/

namespace LinePatch

/-- Why a command is refused. -/
inductive Refusal where
  /-- The patch is given both in a file and in the arguments. -/
  | twoInputs
  | patchFileUnread (path : String) (fault : Tree.Fault)
  | standardInputUnread (fault : Tree.Fault)
  | settingsUnread (path : String) (fault : Tree.Fault)
  /-- The file does not hold settings. -/
  | notSettings (path : String)
  /-- There is no patch in the text that it should be taken from. -/
  | noPatchFound
  /-- The patch itself is refused. -/
  | patch (error : PatchError)
  /-- A path of the patch leads out of the directory that the patch is for. -/
  | outside (path : String)
  | fileUnread (path : String) (fault : Tree.Fault)
  /-- Something else than a file stands where a file should be written. -/
  | notOverwritten (path : String)
  /-- A file stands where a directory on the way to the path should be. -/
  | obstructed (path obstacle : String)
  /-- What should be deleted is not a file. -/
  | notDeletable (path : String)
  | directoryNotMade (path : String) (fault : Tree.Fault)
  /-- No temporary file is made for a file that should be written. -/
  | fileNotStaged (path reason : String)
  | fileNotWritten (path : String) (fault : Tree.Fault)
  | fileNotDeleted (path : String) (fault : Tree.Fault)
  deriving DecidableEq, Repr, Inhabited

namespace Refusal

/-- A path between quotes. -/
def shown (path : String) : String :=
  "'" ++ path ++ "'"

/-- The wording of a refusal. -/
def message : Refusal → String
  | twoInputs => "provide only one of --patch-file or --patch-source"
  | patchFileUnread path fault =>
    "failed reading patch file " ++ shown path ++ ": " ++ fault.message
  | standardInputUnread fault => "failed reading patch from stdin: " ++ fault.message
  | settingsUnread path fault => "failed reading config " ++ shown path ++ ": " ++ fault.message
  | notSettings path => "invalid config " ++ shown path
  | noPatchFound => "no '" ++ Document.beginMark ++ "' marker found in input"
  | patch error => error.message
  | outside path => "refusing to touch path outside root: " ++ shown path
  | fileUnread path fault => "failed reading " ++ shown path ++ ": " ++ fault.message
  | notOverwritten path => "refusing to overwrite non-file path " ++ shown path
  | obstructed path obstacle =>
    "cannot write " ++ shown path ++ ": " ++ shown obstacle ++ " is not a directory"
  | notDeletable path => "refusing to delete non-file path " ++ shown path
  | directoryNotMade path fault => "failed creating " ++ shown path ++ ": " ++ fault.message
  | fileNotStaged path reason => "failed staging " ++ shown path ++ ": " ++ reason
  | fileNotWritten path fault => "failed writing " ++ shown path ++ ": " ++ fault.message
  | fileNotDeleted path fault => "failed deleting " ++ shown path ++ ": " ++ fault.message

/-- The error of the patch that a refusal comes from, if it does. -/
def patchError? : Refusal → Option PatchError
  | patch error => some error
  | _ => none

end Refusal

end LinePatch
