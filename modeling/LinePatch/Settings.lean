/-!
# Settings

What a caller decides about reading and applying patches.

## Main definitions

* `Mode`, `BareLines`, `Settings`.
-/

namespace LinePatch

/-- What happens to a hunk that disagrees with the file. -/
inductive Mode where
  /-- The hunk is trusted, and the disagreement is only reported. -/
  | lenient
  /-- The patch is rejected. -/
  | strict
  deriving DecidableEq, Repr, Inhabited

/-- What is made of a line of a hunk that begins with none of the marks of a line. -/
inductive BareLines where
  /-- The line is left out. -/
  | skip
  /-- The line, as it stands, is one that the file keeps. -/
  | context
  deriving DecidableEq, Repr, Inhabited

/-- The decisions of a caller. -/
structure Settings where
  mode : Mode := .lenient
  bareLines : BareLines := .skip
  /-- Whether a document without an end mark is refused. -/
  requireEndMark : Bool := false
  deriving DecidableEq, Repr, Inhabited

namespace Settings

def isStrict (settings : Settings) : Bool :=
  settings.mode == .strict

end Settings

end LinePatch
