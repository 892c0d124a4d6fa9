import LinePatch.Document.SyntaxError
import LinePatch.Hunk.Recovery

/-!
# Errors of patches

The ways in which a patch is refused as a whole: it cannot be read, it does not suit the files,
or one of its hunks disagrees with a file although agreement is asked for.

## Main definitions

* `PatchError`, `PatchError.message`: the errors and their wording.
-/

namespace LinePatch

/-- Why a patch is refused. -/
inductive PatchError where
  /-- The document cannot be read. -/
  | syntaxError (error : Document.SyntaxError)
  /-- There is no file to update or delete at this path. -/
  | missingFile (path : String)
  /-- There is a file already where one should be added. -/
  | fileExists (path : String)
  /-- A hunk disagrees with the file, which the strict mode refuses. -/
  | hunkRejected (path : String) (hunkIndex : Nat) (recovery : Recovery)
  deriving DecidableEq, Repr, Inhabited

namespace PatchError

/-- The wording of an error. -/
def message : PatchError → String
  | syntaxError error => error.message
  | missingFile path => "file not found: '" ++ path ++ "'"
  | fileExists path => "file already exists: '" ++ path ++ "'"
  | hunkRejected path hunkIndex recovery =>
    "hunk " ++ toString hunkIndex ++ " of '" ++ path ++ "' rejected in strict mode: " ++
      recovery.message

def isSyntax : PatchError → Bool
  | syntaxError _ => true
  | _ => false

end PatchError

end LinePatch
