import LinePatch.Action
import LinePatch.Json.Record

/-!
# The JSON form of actions

## Main definitions

* `HunkLine.toJson`, `Hunk.toJson`, `Action.toJson`: the form that is written.
* `HunkLine.ofJson?`, `Hunk.ofJson?`, `Action.ofJson?`: reading it.
-/

namespace LinePatch

open Json (Value required optional)

namespace HunkLine

/-- A line of a hunk, with what becomes of it. -/
def toJson : HunkLine → Value
  | context text => .object [("op", .ofEnum "context"), ("text", .string text)]
  | add text => .object [("op", .ofEnum "add"), ("text", .string text)]
  | remove text => .object [("op", .ofEnum "remove"), ("text", .string text)]

/-- What becomes of a line, by its name. -/
def ops : List (String × (String → HunkLine)) :=
  [("context", context), ("add", add), ("remove", remove)]

/-- Reads a line, which may be `inner` to an action. -/
def ofJson? (inner : Bool) : Value → Option HunkLine
  | .array [op, text] => do
    let op ← op.named? ops inner
    return op (← text.string?)
  | .object fields => do
    let op ← required "op" (Value.enum? ops inner) fields
    return op (← required "text" Value.string? fields)
  | _ => none

end HunkLine

namespace Hunk

/-- A label is written also where there is none. -/
def toJson (hunk : Hunk) : Value :=
  .object [("label", (hunk.label.map Value.string).getD .null),
    ("lines", .array (hunk.lines.map HunkLine.toJson))]

/-- Reads a hunk, which may be `inner` to an action. -/
def ofJson? (inner : Bool) (value : Value) : Option Hunk := do
  let fields ← value.record? ["label", "lines"] false
  let label ← optional "label" Value.stringOrNull? none fields
  let lines ← required "lines" (Value.list? (HunkLine.ofJson? inner)) fields
  return ⟨label, lines⟩

end Hunk

namespace Action

def toJson : Action → Value
  | update path hunks =>
    .object [("action", .ofEnum "update_file"), ("path", .string path),
      ("hunks", .array (hunks.map Hunk.toJson))]
  | add path content =>
    .object [("action", .ofEnum "add_file"), ("path", .string path),
      ("content", .string content)]
  | delete path => .object [("action", .ofEnum "delete_file"), ("path", .string path)]

/-- The kinds of actions. -/
def kinds : List Value.Kind :=
  [("update_file", ["path", "hunks"]), ("add_file", ["path", "content"]),
    ("delete_file", ["path"])]

def ofJson? (value : Value) : Option Action := do
  let (tag, fields) ← value.tagged? "action" kinds false
  let path ← required "path" Value.string? fields
  match tag with
  | "update_file" =>
    return update path (← required "hunks" (Value.list? (Hunk.ofJson? true)) fields)
  | "add_file" => return add path (← required "content" Value.string? fields)
  | _ => return delete path

end Action

end LinePatch
