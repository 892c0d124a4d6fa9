/-!
# Recoveries

Applying a hunk never fails. Where the hunk and the file disagree the hunk is trusted, and a
recovery records the disagreement, so that a caller who wants exact agreement can refuse it.

## Main definitions

* `Recovery`: a disagreement between a hunk and a file.
* `Recovery.message`: its wording.
-/

namespace LinePatch

/-- A disagreement between a hunk and a file. -/
inductive Recovery where
  /-- The file shows another line than the kept one. The text of the hunk is written, and the
  line of the file stays to be matched. -/
  | contextMismatch (hunkLine : Nat) (expected : String) (found : Option String)
  /-- The file shows another line than the removed one, and nothing is removed. -/
  | removalSkipped (hunkLine : Nat) (expected : String) (found : Option String)
  /-- No line of the file is the removed one, and the hunk is left out. -/
  | removalNotFound (expected : String)
  deriving DecidableEq, Repr, Inhabited

namespace Recovery

/-- How a line of a hunk is numbered for a reader: from one, in words of 64 bits. -/
def shownNumber (hunkLine : Nat) : String :=
  toString ((hunkLine + 1) % UInt64.size)

/-- What the file shows where a line was expected. -/
def shownFound : Option String → String
  | some text => "'" ++ text ++ "'"
  | none => "end of file"

/-- The wording of a recovery. -/
def message : Recovery → String
  | contextMismatch hunkLine expected found =>
    "context line " ++ shownNumber hunkLine ++ " expected '" ++ expected ++ "' but found " ++
      shownFound found
  | removalSkipped hunkLine expected found =>
    "removed line " ++ shownNumber hunkLine ++ " expected '" ++ expected ++ "' but found " ++
      shownFound found
  | removalNotFound expected => "removed line '" ++ expected ++ "' not found in file"

end Recovery

end LinePatch
