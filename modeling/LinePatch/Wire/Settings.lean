import LinePatch.Json.Reader
import LinePatch.Json.Record
import LinePatch.Settings

/-!
# The JSON form of settings

A setting that is not given has its default.

## Main definitions

* `Settings.toJson`, `Settings.ofJson?`: the form, and reading it.
* `Settings.ofText?`: the settings that a text gives.
-/

namespace LinePatch

open Json (Value optional)

/-- The names of the modes. -/
def Mode.names : List (String × Mode) :=
  [("lenient", .lenient), ("strict", .strict)]

/-- The names of what is made of bare lines. -/
def BareLines.names : List (String × BareLines) :=
  [("skip", .skip), ("context", .context)]

def Mode.toJson : Mode → Value
  | lenient => .ofEnum "lenient"
  | strict => .ofEnum "strict"

def BareLines.toJson : BareLines → Value
  | skip => .ofEnum "skip"
  | context => .ofEnum "context"

namespace Settings

def toJson (settings : Settings) : Value :=
  .object [("mode", settings.mode.toJson), ("unprefixed_lines", settings.bareLines.toJson),
    ("require_end_marker", .bool settings.requireEndMark)]

def ofJson? (value : Value) : Option Settings := do
  let fields ← value.record? ["mode", "unprefixed_lines", "require_end_marker"] true
  let default : Settings := {}
  let mode ← optional "mode" (Value.enum? Mode.names false) default.mode fields
  let bareLines ←
    optional "unprefixed_lines" (Value.enum? BareLines.names false) default.bareLines fields
  let requireEndMark ←
    optional "require_end_marker" Value.bool? default.requireEndMark fields
  return ⟨mode, bareLines, requireEndMark⟩

/-- The settings that a text gives. -/
def ofText? (text : String) : Option Settings :=
  Value.ofText? text >>= ofJson?

end Settings

end LinePatch
