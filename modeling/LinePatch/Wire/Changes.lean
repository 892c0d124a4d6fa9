import LinePatch.Changes
import LinePatch.Json.Record

/-!
# The JSON form of changes

## Main definitions

* `Changes.toJson`, `Changes.ofJson?`: the form, and reading it.
-/

namespace LinePatch

open Json (Value required)

/-- Texts by path, as the fields of an object. -/
def PathMap.toJson (texts : PathMap String) : Value :=
  .object (texts.entries.map fun entry => (entry.1, .string entry.2))

/-- Reads texts by path. Of several texts for one path the last one counts. -/
def PathMap.ofJson? (value : Value) : Option (PathMap String) :=
  (value.entries? Value.string?).map PathMap.ofList

/-- Paths, as an array in order. -/
def PathSet.toJson (set : PathSet) : Value :=
  .array (set.paths.map Value.string)

/-- Reads paths, which may come in any order and repeatedly. -/
def PathSet.ofJson? (value : Value) : Option PathSet :=
  (value.list? Value.string?).map fun paths => PathMap.ofList (paths.map fun path => (path, ()))

namespace Changes

def toJson (changes : Changes) : Value :=
  .object [("updated", changes.updated.toJson), ("added", changes.added.toJson),
    ("deleted", PathSet.toJson changes.deleted)]

def ofJson? (value : Value) : Option Changes := do
  let fields ← value.record? ["updated", "added", "deleted"] false
  let updated ← required "updated" PathMap.ofJson? fields
  let added ← required "added" PathMap.ofJson? fields
  let deleted ← required "deleted" PathSet.ofJson? fields
  return ⟨updated, added, deleted⟩

end Changes

end LinePatch
