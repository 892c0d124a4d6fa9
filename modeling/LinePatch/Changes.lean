import LinePatch.Event
import LinePatch.PathMap

/-!
# Changes

What a patch amounts to once all its actions have succeeded: the files to write and the files to
delete. Among several actions of one kind on one path the last one counts.

## Main definitions

* `Change`: the outcome of one action.
* `Changes`, `Changes.ofList`: the outcomes of a patch taken together.
* `Changes.summary`, `Changes.touched`: what to tell about them.
-/

namespace LinePatch

/-- The outcome of one action. -/
inductive Change where
  | updated (path : String) (text : String)
  | added (path : String) (text : String)
  | deleted (path : String)
  deriving DecidableEq, Repr, Inhabited

/-- The report on a change. -/
def Change.event : Change → Event
  | updated path _ => .fileUpdated path
  | added path _ => .fileAdded path
  | deleted path => .fileDeleted path

/-- The outcomes of a patch. -/
structure Changes where
  updated : PathMap String := .empty
  added : PathMap String := .empty
  deleted : PathSet := .empty
  deriving DecidableEq, Repr, Inhabited

namespace Changes

/-- The changes together with one more. -/
def record (changes : Changes) : Change → Changes
  | .updated path text => { changes with updated := changes.updated.insert path text }
  | .added path text => { changes with added := changes.added.insert path text }
  | .deleted path => { changes with deleted := changes.deleted.insert path () }

/-- The changes of a list, in which later ones count. -/
def ofList (list : List Change) : Changes :=
  list.foldl record {}

def isEmpty (changes : Changes) : Bool :=
  changes.updated.isEmpty && changes.added.isEmpty && changes.deleted.isEmpty

/-- All paths that change, in order. -/
def touched (changes : Changes) : List String :=
  let paths := changes.updated.paths ++ changes.added.paths ++ changes.deleted.paths
  (PathMap.ofList (paths.map fun path => (path, ()))).paths

theorem mem_touched_iff {changes : Changes} {path : String} :
    path ∈ changes.touched ↔ path ∈ changes.updated.paths ∨ path ∈ changes.added.paths ∨
      path ∈ changes.deleted.paths := by
  rw [touched, PathMap.mem_paths_ofList]
  simp

/-- A line about each path: the added ones, the updated ones, the deleted ones. -/
def summary (changes : Changes) : List String :=
  changes.added.paths.map ("A " ++ ·) ++ changes.updated.paths.map ("M " ++ ·) ++
    changes.deleted.paths.map ("D " ++ ·)

end Changes

end LinePatch
