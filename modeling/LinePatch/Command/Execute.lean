import LinePatch.Command.Arguments
import LinePatch.Command.Staging
import LinePatch.Json.Writer
import LinePatch.Log
import LinePatch.Reply
import LinePatch.Wire.Changes
import LinePatch.Wire.Event
import LinePatch.Wire.Patch
import LinePatch.Wire.Settings

/-!
# Executing the command

The command reads the patch, then the settings, then the files that the patch names, each of them
once. All that it reports is known before anything is written: only a commit changes the tree.

## Main definitions

* `Input.text`, `select`, `Choices.settings`, `requestedDocument`: what the command works with.
* `loadFiles`: the files that a patch names, as far as there are any.
* `requestedActions`, `requestedChanges`: what a patch asks for, and what it amounts to.
* `requested`: the changes that a request to apply a patch comes to.
* `eventLines`, `runLines`: what is said about events while they occur.
* `Report`, `Request.execute`: what a request says, and the tree that it leaves by a method of
  committing.
* `Invocation.execute`: a command line, with temporary files.
-/

namespace LinePatch

open Json (Value Layout)

/-- The text that the patch is in. -/
def Input.text (input : Input) (standardInput : ByteArray) (tree : Tree) :
    Except Refusal String :=
  match input.file, input.source with
  | some _, some _ => .error .twoInputs
  | some path, none => (tree.readText path).mapError (.patchFileUnread path)
  | none, some source => .ok source
  | none, none => (Tree.decode standardInput).mapError .standardInputUnread

/-- The patch in a text: all of the text, unless it is to be extracted. -/
def select (extract : Bool) (text : String) : Except Refusal String :=
  if extract then
    match Reply.extract? text with
    | some document => .ok document
    | none => .error .noPatchFound
  else .ok text

/-- The settings in a file. -/
def readSettings (tree : Tree) (path : String) : Except Refusal Settings := do
  let text ← (tree.readText path).mapError (.settingsUnread path)
  match Settings.ofText? text with
  | some settings => return settings
  | none => throw (.notSettings path)

/-- The settings with the ones that are chosen besides. -/
def Choices.adjust (choices : Choices) (settings : Settings) : Settings where
  mode := if choices.strict then .strict else settings.mode
  bareLines := if choices.bareAsContext then .context else settings.bareLines
  requireEndMark := choices.requireEndMark || settings.requireEndMark

/-- The settings of a command. -/
def Choices.settings (choices : Choices) (tree : Tree) : Except Refusal Settings :=
  match choices.file with
  | some path => choices.adjust <$> readSettings tree path
  | none => .ok (choices.adjust {})

/-- Adds the file that a path leads to. A path that is known already is not looked at again, and
what is not a file is passed over. -/
def loadFile (tree : Tree) (root : String) (files : PathMap String) (path : String) :
    Except Refusal (PathMap String) :=
  if (files.get? path).isSome then .ok files
  else do
    let full ← Commit.target root path
    if tree.isFile full then
      let text ← (tree.readText full).mapError (.fileUnread full)
      return files.insert path text
    else return files

/-- The files that actions name. -/
def loadFiles (tree : Tree) (root : String) (actions : List Action) :
    Except Refusal (PathMap String) :=
  actions.foldlM (fun files action => loadFile tree root files action.path) .empty

/-- The document that a command is about, and the settings to read it with. -/
def requestedDocument (input : Input) (choices : Choices) (extract : Bool)
    (standardInput : ByteArray) (tree : Tree) : Except Refusal (Settings × String) := do
  let text ← input.text standardInput tree
  let document ← select extract text
  let settings ← choices.settings tree
  return (settings, document)

/-- The actions that a command is about, with the settings. -/
def requestedActions (input : Input) (choices : Choices) (extract : Bool)
    (standardInput : ByteArray) (tree : Tree) : Run Refusal (Settings × List Action) := do
  let (settings, document) ←
    Run.ofExcept (requestedDocument input choices extract standardInput tree)
  let actions ← (readActions settings document).mapError .patch
  return (settings, actions)

/-- The changes that actions make to the files of a tree. -/
def requestedChanges (settings : Settings) (root : String) (actions : List Action) (tree : Tree) :
    Run Refusal Changes := do
  let files ← Run.ofExcept (loadFiles tree root actions)
  (applyActions settings.mode files.get? actions).mapError .patch

/-- The changes that a request to apply a patch comes to. -/
def requested (input : Input) (choices : Choices) (root : String) (extract : Bool)
    (standardInput : ByteArray) (tree : Tree) : Run Refusal Changes :=
  requestedActions input choices extract standardInput tree >>= fun request =>
    requestedChanges request.1 root request.2 tree

/-! ### Reports -/

/-- What a command says. -/
structure Report where
  exitCode : Nat
  standardOutput : String
  /-- Lines about the events, and the refusal. -/
  standardError : List String
  deriving DecidableEq, Repr, Inhabited

/-- Lines of output. -/
def outputLines (lines : List String) : String :=
  String.join (lines.map (· ++ "\n"))

/-- An entry of a log as a line. -/
def Log.Entry.line (entry : Log.Entry) : String :=
  " ".intercalate
    (entry.level.name :: entry.message :: entry.fields.map fun field => field.1 ++ "=" ++ field.2)

/-- Whether an entry is shown: warnings always are, information from the first raise of the
verbosity, the rest from the second. -/
def Log.Entry.isShown (verbosity : Nat) (entry : Log.Entry) : Bool :=
  match entry.level with
  | .warn => true
  | .info => decide (1 ≤ verbosity)
  | .debug => decide (2 ≤ verbosity)

/-- The lines about entries of a log. -/
def logLines (verbosity : Nat) (log : List Log.Entry) : List String :=
  (log.filter (·.isShown verbosity)).map Log.Entry.line

/-- The entry about a deed. -/
def Commit.Deed.log : Commit.Deed → Log.Entry
  | written path => ⟨.info, "wrote file", [("path", path)]⟩
  | deleted path => ⟨.info, "deleted file", [("path", path)]⟩

/-- The lines in which events are passed on: each as JSON, or as the entry that a log has for it. -/
def eventLines (verbosity : Nat) (eventJson : Bool) (events : List Event) : List String :=
  if eventJson then events.map fun event => event.toJson.toText .compact
  else logLines verbosity (events.map Event.entry)

/-- All lines about the events of a run that ended with this error, if it did: what comes before an
event is logged, however the event is passed on. -/
def runLines (verbosity : Nat) (eventJson : Bool) (error? : Option PatchError)
    (events : List Event) : List String :=
  events.flatMap fun event =>
    logLines verbosity (event.forerunners error?) ++ eventLines verbosity eventJson [event]

/-- The log before the first event: what a command says once it has its document, and the log of the
reading. -/
def readingLog (opening : Settings → List Log.Entry)
    (document : Except Refusal (Settings × String)) : List Log.Entry :=
  match document with
  | .ok (settings, document) => opening settings ++ (Document.read settings document).log
  | .error _ => []

/-- What a request to apply a patch says once it has its document. -/
def openingLog (dryRun : Bool) (settings : Settings) : List Log.Entry :=
  [⟨.debug, "applying patch",
    [("strict", toString settings.isStrict), ("dry_run", toString dryRun)]⟩]

/-- The report on a refusal. -/
def refused (events : List String) (refusal : Refusal) : Report :=
  ⟨1, "", events ++ ["error: " ++ refusal.message]⟩

/-- What is said about changes. -/
def Changes.show (changes : Changes) (dryRun json : Bool) : String :=
  if json then outputLines [changes.toJson.toText .pretty]
  else
    outputLines ((if dryRun then "Dry run, no files written:" else "Applied patch:") ::
      changes.summary)

/-- What is said about actions. -/
def showActions (actions : List Action) (json : Bool) : String :=
  if json then outputLines [(Value.array (actions.map Action.toJson)).toText .pretty]
  else outputLines (actions.map Action.describe)

/-- Tells whether a text holds a patch, and which file it updates first. -/
def detection (text : String) : Report :=
  if Reply.looksLikePatch text then
    ⟨0, outputLines ["patch: " ++ (Reply.target? text).getD "[patch]"], []⟩
  else ⟨2, outputLines ["no patch found"], []⟩

/-- Executes a request: what it says, and the tree that it leaves. -/
def Request.execute (request : Request) (method : Commit.Method) (verbosity : Nat)
    (standardInput : ByteArray) (tree : Tree) : Report × Tree :=
  match request with
  | .apply input choices root extract dryRun json eventJson =>
    let document := requestedDocument input choices extract standardInput tree
    let run := requested input choices root extract standardInput tree
    let lines := logLines verbosity (readingLog (openingLog dryRun) document) ++
      runLines verbosity eventJson (run.error? >>= Refusal.patchError?) run.events
    match run.result with
    | .error refusal => (refused lines refusal, tree)
    | .ok changes =>
      if dryRun then (⟨0, changes.show dryRun json, lines⟩, tree)
      else
        let outcome := method.commit root changes tree
        let lines := lines ++ logLines verbosity (outcome.deeds.map Commit.Deed.log)
        match outcome.refusal? with
        | none => (⟨0, changes.show dryRun json, lines⟩, outcome.tree)
        | some refusal => (refused lines refusal, outcome.tree)
  | .check input choices extract json =>
    let document := requestedDocument input choices extract standardInput tree
    let run := requestedActions input choices extract standardInput tree
    let lines := logLines verbosity (readingLog (fun _ => []) document) ++
      runLines verbosity false (run.error? >>= Refusal.patchError?) run.events
    match run.result with
    | .error refusal => (refused lines refusal, tree)
    | .ok (_, actions) => (⟨0, showActions actions json, lines⟩, tree)
  | .detect input =>
    match input.text standardInput tree with
    | .error refusal => (refused [] refusal, tree)
    | .ok text => (detection text, tree)

/-- Executes a command line. Texts get to their places by way of temporary files. -/
def Invocation.execute (invocation : Invocation) (standardInput : ByteArray) (tree : Tree) :
    Report × Tree :=
  invocation.request.execute (.staged .unspelled) invocation.verbosity standardInput tree

end LinePatch
