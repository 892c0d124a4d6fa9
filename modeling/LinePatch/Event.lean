import LinePatch.Hunk.Application

/-!
# Events

What reading and applying a patch reports on the way.

## Main definitions

* `Event`: a report.
-/

namespace LinePatch

/-- A report on the reading or the application of a patch. -/
inductive Event where
  /-- The document was read, and asks for so many actions. -/
  | parsed (actions : Nat)
  /-- A hunk was applied. -/
  | hunkApplied (path : String) (hunkIndex : Nat) (strategy : Strategy)
  /-- A hunk disagreed with the file, and was trusted. -/
  | fuzzyRecovery (path : String) (hunkIndex : Nat) (recovery : Recovery)
  | fileUpdated (path : String)
  | fileAdded (path : String)
  | fileDeleted (path : String)
  /-- The patch was refused. -/
  | rejected (reason : String)
  deriving DecidableEq, Repr, Inhabited

/-- The events of one applied hunk: its recoveries, then the application. -/
def Application.events (path : String) (hunkIndex : Nat) (application : Application) :
    List Event :=
  application.recoveries.map (.fuzzyRecovery path hunkIndex) ++
    [.hunkApplied path hunkIndex application.strategy]

end LinePatch
