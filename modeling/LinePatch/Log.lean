import LinePatch.Apply
import LinePatch.Text.Quoted

/-!
# Logs

What a run tells a person who follows it. The log of the reading names each hunk and each section
that was read before an error, and the log of the application has an entry for each event.

## Main definitions

* `Log.Entry`: a message with named values.
* `Event.forerunners`, `Event.entry`: the entries before an event, and the one about it.
* `Document.Reading.log`, `Run.log`: the logs of reading and of applying.
* `applyLog`: the log of a document that is read and applied.
-/

namespace LinePatch

namespace Log

/-- How much an entry matters. -/
inductive Level where
  | debug
  | info
  | warn
  deriving DecidableEq, Repr, Inhabited

/-- The name of a level. -/
def Level.name : Level → String
  | debug => "DEBUG"
  | info => "INFO"
  | warn => "WARN"

/-- A message with named values. -/
structure Entry where
  level : Level
  message : String
  fields : List (String × String)
  deriving DecidableEq, Repr, Inhabited

/-- A label as it is shown. -/
def shownLabel : Option String → String
  | none => "None"
  | some text => "Some(" ++ Text.quoted text ++ ")"

/-- A strategy as it is shown. The values of a replacement stand in braces. -/
def shownStrategy : Strategy → String
  | .positional => "Positional"
  | .prepend => "Prepend"
  | .replace start removed =>
    "Replace \x7b matched_at: " ++ toString start ++ ", removed: " ++ toString removed ++ " \x7d"
  | .unmatched => "Unmatched"

/-- The entry about a hunk that was read. -/
def hunkRead (hunk : Hunk) : Entry :=
  ⟨.debug, "parsed hunk",
    [("lines", toString hunk.lines.length), ("label", shownLabel hunk.label)]⟩

/-- The entries about an action that was read: only updates have some. -/
def actionRead : Action → List Entry
  | .update path hunks =>
    hunks.map hunkRead ++
      [⟨.debug, "parsed update section", [("path", path), ("hunks", toString hunks.length)]⟩]
  | _ => []

/-- The entry about a hunk without kept lines whose place was not found. It comes before the
report on the recovery. -/
def notFound : Recovery → List Entry
  | .removalNotFound expected =>
    [⟨.debug, "context-free hunk did not match", [("expected", expected)]⟩]
  | _ => []

/-- The entries that come before the report on an error. -/
def beforeRejection : PatchError → List Entry
  | .hunkRejected _ _ recovery => notFound recovery
  | _ => []

end Log

open Log

/-- The log of the reading of a document. -/
def Document.Reading.log (reading : Document.Reading) : List Entry :=
  reading.actions.flatMap actionRead

/-- The entries that come before an event of a run that ended with this error, if it did. -/
def Event.forerunners (error? : Option PatchError) : Event → List Entry
  | fuzzyRecovery _ _ recovery => notFound recovery
  | rejected _ => (error?.map beforeRejection).getD []
  | _ => []

/-- The entry about an event. -/
def Event.entry : Event → Entry
  | parsed actions => ⟨.debug, "patch parsed", [("actions", toString actions)]⟩
  | hunkApplied path hunkIndex strategy =>
    ⟨.debug, "hunk applied", [("path", path), ("hunk_index", toString hunkIndex),
      ("strategy", shownStrategy strategy)]⟩
  | fuzzyRecovery path hunkIndex recovery =>
    ⟨.warn, "hunk did not match cleanly", [("path", path), ("hunk_index", toString hunkIndex),
      ("recovery", recovery.message)]⟩
  | fileUpdated path => ⟨.debug, "file updated", [("path", path)]⟩
  | fileAdded path => ⟨.debug, "file added", [("path", path)]⟩
  | fileDeleted path => ⟨.debug, "file deleted", [("path", path)]⟩
  | rejected reason => ⟨.warn, "patch rejected", [("reason", reason)]⟩

/-- The error that a run ended with. -/
def Run.error? {ε α : Type} (run : Run ε α) : Option ε :=
  match run.result with
  | .ok _ => none
  | .error error => some error

/-- The log of a run. -/
def Run.log {α : Type} (run : Run PatchError α) : List Entry :=
  run.events.flatMap fun event => event.forerunners run.error? ++ [event.entry]

/-- The log of a document that is read and applied to files. -/
def applyLog (settings : Settings) (files : Files) (document : String) : List Entry :=
  (Document.read settings document).log ++ (applyDocument settings files document).log

end LinePatch
