import LinePatch.Action
import LinePatch.Document.Section

/-!
# Reading documents

A document is read from the line that opens it to its end mark, or to its last line when there is
none. Each head of a section takes the lines down to the next line that begins with three stars.
Reading stops at the first offence, and what was read before it stays known.

## Main definitions

* `Document.Reading`: the actions of a document as far as it was read, and the error that ended
  the reading.
* `Document.read`: reads a document.
* `Document.actions`: the actions of a document without errors.
-/

namespace LinePatch.Document

/-- What was read of a document. -/
structure Reading where
  /-- The actions up to the error, if there is one. -/
  actions : List Action
  error? : Option SyntaxError
  deriving DecidableEq, Repr, Inhabited

namespace Reading

/-- The reading with one more action in front. -/
def after (action : Action) (reading : Reading) : Reading :=
  { reading with actions := action :: reading.actions }

/-- The reading that an error ends at once. -/
def failed (lineNumber : Nat) (offence : Offence) : Reading :=
  ⟨[], some ⟨lineNumber, offence⟩⟩

/-- All actions, or the error. -/
def result (reading : Reading) : Except SyntaxError (List Action) :=
  match reading.error? with
  | none => .ok reading.actions
  | some error => .error error

end Reading

/-- The lines of a section below its head. -/
def body (lines : List Line) : List Line :=
  lines.takeWhile Line.isBody

/-- The lines after a section. -/
def afterBody (lines : List Line) : List Line :=
  lines.dropWhile Line.isBody

theorem length_afterBody_le (lines : List Line) : (afterBody lines).length ≤ lines.length :=
  (List.dropWhile_suffix Line.isBody).length_le

/-- Reads lines from outside every section on, the first of which has this number. `atEnd` is the
error that the lack of an end mark amounts to. -/
def readSections (bareLines : BareLines) (atEnd : Option SyntaxError) (lineNumber : Nat) :
    List Line → Reading
  | [] => ⟨[], atEnd⟩
  | .endMark :: _ => ⟨[], none⟩
  | .update path :: lines =>
    match hunks bareLines (body lines) with
    | [] => .failed lineNumber (.noHunks path)
    | hunk :: hunks =>
      (readSections bareLines atEnd (lineNumber + 1 + (body lines).length)
        (afterBody lines)).after (.update path (hunk :: hunks))
  | .add path :: lines =>
    match content (lineNumber + 1) (body lines) with
    | .error error => ⟨[], some error⟩
    | .ok text =>
      (readSections bareLines atEnd (lineNumber + 1 + (body lines).length)
        (afterBody lines)).after (.add path (Text.unlines text))
  | .delete path :: lines =>
    (readSections bareLines atEnd (lineNumber + 1) lines).after (.delete path)
  | .blank :: lines => readSections bareLines atEnd (lineNumber + 1) lines
  | .hunk _ :: lines => readSections bareLines atEnd (lineNumber + 1) lines
  | line :: _ => .failed lineNumber (.strayLine line.text)
termination_by lines => lines.length
decreasing_by
  all_goals
    simp only [List.length_cons]
    have := length_afterBody_le lines
    omega

/-- Reads a document. The lack of an end mark is found on the last line. -/
def read (settings : Settings) (text : String) : Reading :=
  match Text.lines text with
  | [] => .failed 1 .noBeginMark
  | first :: rest =>
    if (Text.after? beginMark first).isNone then .failed 1 .noBeginMark
    else
      let atEnd := if settings.requireEndMark then some ⟨rest.length + 1, .noEndMark⟩ else none
      readSections settings.bareLines atEnd 2 (rest.map Line.ofText)

/-- The actions that a document asks for. -/
def actions (settings : Settings) (text : String) : Except SyntaxError (List Action) :=
  (read settings text).result

end LinePatch.Document
