import LinePatch.Event
import LinePatch.Json.Record

/-!
# The JSON form of events

## Main definitions

* `Recovery.toJson`, `Strategy.toJson`, `Event.toJson`: the form that is written.
* `Recovery.ofJson?`, `Strategy.ofJson?`, `Event.ofJson?`: reading it.
-/

namespace LinePatch

open Json (Value Fields required optional)

namespace Recovery

/-- The fields of a recovery at a line of a hunk. -/
def lineFields (hunkLine : Nat) (expected : String) (found : Option String) : Fields :=
  [("hunk_line", .count hunkLine), ("expected", .string expected),
    ("found", (found.map Value.string).getD .null)]

def toJson : Recovery → Value
  | contextMismatch hunkLine expected found =>
    .object (("kind", .ofEnum "context_mismatch") :: lineFields hunkLine expected found)
  | removalSkipped hunkLine expected found =>
    .object (("kind", .ofEnum "removal_skipped") :: lineFields hunkLine expected found)
  | removalNotFound expected =>
    .object [("kind", .ofEnum "removal_not_found"), ("expected", .string expected)]

/-- The kinds of recoveries. -/
def kinds : List Value.Kind :=
  [("context_mismatch", ["hunk_line", "expected", "found"]),
    ("removal_skipped", ["hunk_line", "expected", "found"]),
    ("removal_not_found", ["expected"])]

/-- Reads a recovery, which may be `inner` to an event. -/
def ofJson? (inner : Bool) (value : Value) : Option Recovery := do
  let (tag, fields) ← value.tagged? "kind" kinds inner
  let expected ← required "expected" Value.string? fields
  match tag with
  | "removal_not_found" => return removalNotFound expected
  | _ =>
    let hunkLine ← required "hunk_line" Value.count? fields
    let found ← optional "found" Value.stringOrNull? none fields
    match tag with
    | "context_mismatch" => return contextMismatch hunkLine expected found
    | _ => return removalSkipped hunkLine expected found

end Recovery

namespace Strategy

def toJson : Strategy → Value
  | positional => .object [("kind", .ofEnum "positional")]
  | prepend => .object [("kind", .ofEnum "prepend")]
  | replace start removed =>
    .object [("kind", .ofEnum "replace"), ("matched_at", .count start),
      ("removed", .count removed)]
  | unmatched => .object [("kind", .ofEnum "unmatched")]

/-- The kinds of strategies. -/
def kinds : List Value.Kind :=
  [("positional", []), ("prepend", []), ("replace", ["matched_at", "removed"]),
    ("unmatched", [])]

/-- Reads a strategy, which may be `inner` to an event. -/
def ofJson? (inner : Bool) (value : Value) : Option Strategy := do
  let (tag, fields) ← value.tagged? "kind" kinds inner
  match tag with
  | "positional" => return positional
  | "prepend" => return prepend
  | "replace" =>
    return replace (← required "matched_at" Value.count? fields)
      (← required "removed" Value.count? fields)
  | _ => return unmatched

end Strategy

namespace Event

/-- The fields of an event about a hunk. -/
def hunkFields (path : String) (hunkIndex : Nat) (name : String) (value : Value) : Fields :=
  [("path", .string path), ("hunk_index", .count hunkIndex), (name, value)]

def toJson : Event → Value
  | parsed actions => .object [("kind", .ofEnum "parsed"), ("actions", .count actions)]
  | hunkApplied path hunkIndex strategy =>
    .object (("kind", .ofEnum "hunk_applied") ::
      hunkFields path hunkIndex "strategy" strategy.toJson)
  | fuzzyRecovery path hunkIndex recovery =>
    .object (("kind", .ofEnum "fuzzy_recovery") ::
      hunkFields path hunkIndex "recovery" recovery.toJson)
  | fileUpdated path => .object [("kind", .ofEnum "file_updated"), ("path", .string path)]
  | fileAdded path => .object [("kind", .ofEnum "file_added"), ("path", .string path)]
  | fileDeleted path => .object [("kind", .ofEnum "file_deleted"), ("path", .string path)]
  | rejected reason => .object [("kind", .ofEnum "rejected"), ("reason", .string reason)]

/-- The kinds of events. -/
def kinds : List Value.Kind :=
  [("parsed", ["actions"]), ("hunk_applied", ["path", "hunk_index", "strategy"]),
    ("fuzzy_recovery", ["path", "hunk_index", "recovery"]), ("file_updated", ["path"]),
    ("file_added", ["path"]), ("file_deleted", ["path"]), ("rejected", ["reason"])]

def ofJson? (value : Value) : Option Event := do
  let (tag, fields) ← value.tagged? "kind" kinds false
  match tag with
  | "parsed" => return parsed (← required "actions" Value.count? fields)
  | "hunk_applied" =>
    return hunkApplied (← required "path" Value.string? fields)
      (← required "hunk_index" Value.count? fields)
      (← required "strategy" (Strategy.ofJson? true) fields)
  | "fuzzy_recovery" =>
    return fuzzyRecovery (← required "path" Value.string? fields)
      (← required "hunk_index" Value.count? fields)
      (← required "recovery" (Recovery.ofJson? true) fields)
  | "file_updated" => return fileUpdated (← required "path" Value.string? fields)
  | "file_added" => return fileAdded (← required "path" Value.string? fields)
  | "file_deleted" => return fileDeleted (← required "path" Value.string? fields)
  | _ => return rejected (← required "reason" Value.string? fields)

end Event

end LinePatch
