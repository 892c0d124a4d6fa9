import LinePatch.Proofs.Apply.Lines
import LinePatch.Proofs.Command.Execute
import LinePatch.Proofs.Command.Loading
import LinePatch.Proofs.Wire.RoundTrip

/-!
# Dry runs

A dry run says what a patch would change, and changes nothing. The command loads the files that the
patch names, and no others, before it applies the patch to them. As a patch looks at the files that
it names and at nothing else, the dry run comes to the same changes as applying the document to any
files that tell what the tree holds for the named paths, whatever they tell of other paths.

## Main definitions

* `Files.TellsOf`: files that tell what a tree holds for a path.
* `Action.IsLoadable`: an action whose file can be loaded.

## Main results

* `applyDocument_loadFiles`: the loaded files and all others that tell the same.
* `requested_eq_ok_iff_applyDocument`: when a request comes to changes, and to which.
* `execute_dryRun`: what a dry run says.
-/

namespace LinePatch

open Json (Value)

variable {tree : Tree} {root : String} {settings : Settings} {document : String}

/-- The files tell what a tree holds for a path of a patch: the text of the file that the path leads
to inside the directory, and nothing if it leads to no file there. -/
def Files.TellsOf (files : Files) (tree : Tree) (root path : String) : Prop :=
  (∀ text, tree.nodeAt? (Path.join root path) = some (.file text.toUTF8) →
    files path = some text) ∧
  (tree.isFile (Path.join root path) = false → files path = none)

theorem Files.tellsOf_of_file {files : Files} {path text : String}
    (hnode : tree.nodeAt? (Path.join root path) = some (.file text.toUTF8))
    (hfile : files path = some text) : files.TellsOf tree root path := by
  constructor
  · intro other hother
    rw [hnode, Option.some.injEq, Node.file.injEq] at hother
    rw [hfile, String.toByteArray_inj.1 hother]
  · intro hnot
    simp [Tree.isFile, hnode] at hnot

theorem Files.tellsOf_of_isFile_eq_false {files : Files} {path : String}
    (hnode : tree.isFile (Path.join root path) = false) (hfile : files path = none) :
    files.TellsOf tree root path := by
  refine ⟨fun text htext => ?_, fun _ => hfile⟩
  simp [Tree.isFile, htext] at hnode

/-- The path of an action is accepted, and if it leads to a file, then to a text. -/
def Action.IsLoadable (tree : Tree) (root : String) (action : Action) : Prop :=
  Commit.target root action.path = .ok (Path.join root action.path) ∧
  ∀ content, tree.nodeAt? (Path.join root action.path) = some (.file content) →
    content.IsValidUTF8

theorem Action.isLoadable_iff {action : Action} :
    action.IsLoadable tree root ↔ ∃ text?, loadedText tree root action.path = .ok text? := by
  rw [IsLoadable, exists_loadedText_iff, target_eq_ok_iff, and_iff_left rfl]

/-- What is loaded for a path is what the files tell of it. -/
theorem Files.TellsOf.eq_of_loadedText {files : Files} {path : String} {text? : Option String}
    (h : files.TellsOf tree root path) (htext : loadedText tree root path = .ok text?) :
    files path = text? := by
  cases text? with
  | some text => exact h.1 text (loadedText_eq_some_iff.1 htext).2
  | none => exact h.2 (loadedText_eq_none_iff.1 htext).2

/-! ### The loaded files and others -/

section

variable {files : Files} {actions : List Action} {loaded : PathMap String}

/-- Actions make the same of the loaded files as of all others that tell the same of their paths. -/
theorem applyActions_loadFiles (hfiles : ∀ action ∈ actions, files.TellsOf tree root action.path)
    (hloaded : loadFiles tree root actions = .ok loaded) (mode : Mode) :
    applyActions mode loaded.get? actions = applyActions mode files actions := by
  refine applyActions_congr fun action haction => ?_
  rw [(hfiles action haction).eq_of_loadedText
    ((loadFiles_eq_ok_iff.1 hloaded).1 action haction)]

theorem readActions_result_eq_ok_iff :
    (readActions settings document).result = .ok actions ↔
      Document.actions settings document = .ok actions := by
  rw [readActions, Run.result_andReport, Run.result_mapError_eq_ok_iff]
  exact Iff.rfl

/-- **Loading no more than the named files changes nothing**, neither in how the application ends
nor in what it reports. -/
theorem applyDocument_loadFiles (hactions : Document.actions settings document = .ok actions)
    (hfiles : ∀ action ∈ actions, files.TellsOf tree root action.path)
    (hloaded : loadFiles tree root actions = .ok loaded) :
    applyDocument settings loaded.get? document = applyDocument settings files document := by
  have hread := readActions_result_eq_ok_iff.2 hactions
  unfold applyDocument
  rcases hrun : readActions settings document with ⟨events, result⟩
  rw [hrun] at hread
  obtain rfl : result = .ok actions := hread
  rw [Run.bind_ok, Run.bind_ok, applyActions_loadFiles hfiles hloaded]

end

/-! ### What a request comes to -/

section

variable {input : Input} {choices : Choices} {extract : Bool} {standardInput : ByteArray}
  {files : Files}

theorem requestedDocument_eq_ok
    (hdocument : (input.text standardInput tree >>= select extract) = .ok document)
    (hsettings : choices.settings tree = .ok settings) :
    requestedDocument input choices extract standardInput tree = .ok (settings, document) := by
  unfold requestedDocument
  cases htext : input.text standardInput tree with
  | error refusal => rw [htext] at hdocument; exact nomatch hdocument
  | ok text =>
    have hselect : select extract text = .ok document := by rwa [htext] at hdocument
    simp only [bind, Except.bind, hselect, hsettings]
    rfl

/-- The actions of a request are those of its document, read with its settings. -/
theorem requestedActions_result_eq_ok_iff {other : Settings} {actions : List Action}
    (hdocument : (input.text standardInput tree >>= select extract) = .ok document)
    (hsettings : choices.settings tree = .ok settings) :
    (requestedActions input choices extract standardInput tree).result = .ok (other, actions) ↔
      settings = other ∧ Document.actions settings document = .ok actions := by
  simp only [requestedActions, Run.result_bind_eq_ok_iff, Run.result_mapError_eq_ok_iff,
    readActions_result_eq_ok_iff, Run.ofExcept, requestedDocument_eq_ok hdocument hsettings,
    Run.pure_def, Except.ok.injEq, exists_eq_left', Prod.mk.injEq]
  constructor
  · rintro ⟨found, hfound, rfl, rfl⟩
    exact ⟨rfl, hfound⟩
  · rintro ⟨rfl, hactions⟩
    exact ⟨actions, hactions, rfl, rfl⟩

/-- **A request comes to the changes that its document makes** to files that tell what the tree
holds for the named paths, if all of these files can be loaded. -/
theorem requested_eq_ok_iff_applyDocument (changes : Changes)
    (hdocument : (input.text standardInput tree >>= select extract) = .ok document)
    (hsettings : choices.settings tree = .ok settings)
    (hfiles : ∀ actions, Document.actions settings document = .ok actions →
      ∀ action ∈ actions, files.TellsOf tree root action.path) :
    (requested input choices root extract standardInput tree).result = .ok changes ↔
      ∃ actions, Document.actions settings document = .ok actions ∧
        (∀ action ∈ actions, action.IsLoadable tree root) ∧
        (applyDocument settings files document).result = .ok changes := by
  simp only [requested_result_eq_ok_iff,
    requestedActions_result_eq_ok_iff hdocument hsettings]
  have happly : ∀ {loaded actions}, Document.actions settings document = .ok actions →
      ((applyDocument settings loaded document).result = .ok changes ↔
        (applyActions settings.mode loaded actions).result = .ok changes) := by
    intro loaded actions hactions
    simp [applyDocument, Run.result_bind_eq_ok_iff, readActions_result_eq_ok_iff, hactions]
  constructor
  · rintro ⟨_, actions, loaded, ⟨rfl, hactions⟩, hloaded, hchanges⟩
    refine ⟨actions, hactions, fun action haction => ?_, ?_⟩
    · exact Action.isLoadable_iff.2 ⟨_, (loadFiles_eq_ok_iff.1 hloaded).1 action haction⟩
    · rw [← applyDocument_loadFiles hactions (hfiles actions hactions) hloaded]
      exact (happly hactions).2 hchanges
  · rintro ⟨actions, hactions, hloadable, hchanges⟩
    obtain ⟨loaded, hloaded⟩ := exists_loadFiles_eq_ok fun action haction =>
      Action.isLoadable_iff.1 (hloadable action haction)
    rw [← applyDocument_loadFiles hactions (hfiles actions hactions) hloaded] at hchanges
    exact ⟨settings, actions, loaded, ⟨rfl, hactions⟩, hloaded, (happly hactions).1 hchanges⟩

/-- What is said about changes in JSON is read back as these changes. -/
theorem ofText?_show (changes : Changes) (dryRun : Bool) :
    changes.show dryRun true = changes.toJson.toText .pretty ++ "\n" ∧
      (Value.ofText? (changes.show dryRun true) >>= Changes.ofJson?) = some changes := by
  have hshow : changes.show dryRun true = changes.toJson.toText .pretty ++ "\n" := by
    simp [Changes.show, outputLines]
  have hread := Value.ofText?_toText_append .pretty changes.isPlain_toJson "\n" rfl
  refine ⟨hshow, ?_⟩
  rw [hshow, hread, Option.bind_eq_bind, Option.bind_some, changes.ofJson?_toJson]

end

/-- **A dry run says what applying the document comes to.** Let the command have its document and
its settings, and let files tell what the tree holds for the paths that the document names. Then the
dry run succeeds if and only if the document is read, all the files that it names can be loaded, and
the document can be applied to the files. What it says is the JSON form of the changes, in several
lines, and is read back as them. It loads no files but the named ones, and that makes no difference.
Whatever it comes to, the tree stays as it is. -/
theorem execute_dryRun (method : Commit.Method) (input : Input) (choices : Choices)
    (extract eventJson : Bool) (verbosity : Nat) (standardInput : ByteArray) {files : Files}
    (hdocument : (input.text standardInput tree >>= select extract) = .ok document)
    (hsettings : choices.settings tree = .ok settings)
    (hfiles : ∀ actions, Document.actions settings document = .ok actions →
      ∀ action ∈ actions, files.TellsOf tree root action.path) :
    let request : Request := .apply input choices root extract true true eventJson
    let outcome := request.execute method verbosity standardInput tree
    (outcome.1.exitCode = 0 ↔ ∃ actions, Document.actions settings document = .ok actions ∧
      (∀ action ∈ actions, action.IsLoadable tree root) ∧
      ∃ changes, (applyDocument settings files document).result = .ok changes) ∧
    (outcome.1.exitCode = 0 → ∃ changes,
      (applyDocument settings files document).result = .ok changes ∧
      outcome.1.standardOutput = changes.toJson.toText .pretty ++ "\n" ∧
      (Value.ofText? outcome.1.standardOutput >>= Changes.ofJson?) = some changes) ∧
    (∀ actions loaded, Document.actions settings document = .ok actions →
      loadFiles tree root actions = .ok loaded →
      (∀ path, path ∉ actions.map Action.path → loaded.get? path = none) ∧
      applyDocument settings loaded.get? document = applyDocument settings files document) ∧
    outcome.2 = tree := by
  intro request outcome
  have hiff := fun changes =>
    requested_eq_ok_iff_applyDocument changes hdocument hsettings hfiles
  have hloading : ∀ actions loaded, Document.actions settings document = .ok actions →
      loadFiles tree root actions = .ok loaded →
      (∀ path, path ∉ actions.map Action.path → loaded.get? path = none) ∧
      applyDocument settings loaded.get? document = applyDocument settings files document :=
    fun actions loaded hactions hloaded => ⟨(loadFiles_eq_ok_iff.1 hloaded).2,
      applyDocument_loadFiles hactions (hfiles actions hactions) hloaded⟩
  have hends : Request.Ends method root true true tree
      (requested input choices root extract standardInput tree).result outcome.1 outcome.2 :=
    Request.ends_execute method input choices root extract standardInput tree true true eventJson
      verbosity
  cases hends with
  | refused hresult hcode _ hafter =>
    have hfails : outcome.1.exitCode ≠ 0 := by rw [hcode]; decide
    refine ⟨⟨fun h => absurd h hfails, ?_⟩, fun h => absurd h hfails, hloading, hafter⟩
    rintro ⟨actions, hactions, hloadable, changes, hchanges⟩
    rw [(hiff changes).2 ⟨actions, hactions, hloadable, hchanges⟩] at hresult
    exact nomatch hresult
  | @shown changes _ hresult hcode houtput hafter =>
    obtain ⟨actions, hactions, hloadable, hchanges⟩ := (hiff changes).1 hresult
    obtain ⟨hshow, hread⟩ := ofText?_show changes true
    refine ⟨⟨fun _ => ⟨actions, hactions, hloadable, changes, hchanges⟩, fun _ => hcode⟩,
      fun _ => ⟨changes, hchanges, houtput.trans hshow, ?_⟩, hloading, hafter⟩
    rw [houtput, hread]
  | committed hdry => exact nomatch hdry
  | broken hdry => exact nomatch hdry

/-- One file under two spellings of its path, and a file in the place of which there is nothing. The
files that are supplied tell of one more, which the tree does not hold. -/
theorem execute_dryRun_two_spellings :
    let lines := ["*** Begin Patch", "*** Update File: a", " z", "+x", "*** Update File: ./a", "-z",
      "*** Add File: d/b", "+y", "*** End Patch"]
    let document := Text.unlines lines
    let input : Input := ⟨none, some document⟩
    let choices : Choices := ⟨none, false, false, false⟩
    let tree : Tree := ⟨["home"], [(["home"], .directory), (["home", "a"], .file "z".toUTF8),
      (["home", "d"], .directory)]⟩
    let files : Files := fun path =>
      if path = "a" ∨ path = "./a" then some "z" else if path = "c" then some "w" else none
    let request : Request := .apply input choices "." false true true false
    let method : Commit.Method := .staged .unspelled
    let changes : Changes :=
      ⟨(PathMap.empty.insert "a" "z\nx").insert "./a" "", PathMap.empty.insert "d/b" "y", .empty⟩
    (∀ actions, Document.actions {} document = .ok actions →
      ∀ action ∈ actions, files.TellsOf tree "." action.path) ∧
    (request.execute method 0 ⟨#[]⟩ tree).1.exitCode = 0 ∧
    (applyDocument {} files document).result = .ok changes ∧
    (request.execute method 0 ⟨#[]⟩ tree).1.standardOutput =
      changes.toJson.toText .pretty ++ "\n" ∧
    (Value.ofText? (request.execute method 0 ⟨#[]⟩ tree).1.standardOutput >>=
      Changes.ofJson?) = some changes ∧
    (request.execute method 0 ⟨#[]⟩ tree).2 = tree := by
  intro lines document input choices tree files request method changes
  have hactions : Document.actions {} document =
      .ok [.update "a" [⟨none, [.context "z", .add "x"]⟩], .update "./a" [⟨none, [.remove "z"]⟩],
        .add "d/b" "y"] := by
    rw [← readActions_result_eq_ok_iff, Run.result_eq_ok_iff]
    decide +kernel
  have hfiles : ∀ actions, Document.actions {} document = .ok actions →
      ∀ action ∈ actions, files.TellsOf tree "." action.path := by
    intro actions hread
    obtain rfl := Except.ok.inj (hactions.symm.trans hread)
    simp only [List.forall_mem_cons, List.not_mem_nil, false_implies, implies_true, and_true]
    have hfile : tree.nodeAt? (Path.join "." "a") = some (.file "z".toUTF8) := by decide +kernel
    have hagain : tree.nodeAt? (Path.join "." "./a") = some (.file "z".toUTF8) := by decide +kernel
    have hfree : tree.isFile (Path.join "." "d/b") = false := by decide +kernel
    exact ⟨Files.tellsOf_of_file hfile (by decide), Files.tellsOf_of_file hagain (by decide),
      Files.tellsOf_of_isFile_eq_false hfree (by decide)⟩
  have hcode : (request.execute method 0 ⟨#[]⟩ tree).1.exitCode = 0 := by decide +kernel
  have hdocument : (input.text ⟨#[]⟩ tree >>= select false) = .ok document := rfl
  have hsettings : choices.settings tree = .ok {} := rfl
  have hresult : (applyDocument {} files document).result = .ok changes := by
    rw [Run.result_eq_ok_iff]
    decide +kernel
  obtain ⟨-, hsaid, -, htree⟩ := execute_dryRun method input choices false false 0
    ⟨#[]⟩ hdocument hsettings hfiles
  obtain ⟨shown, hshown, houtput, hread⟩ := hsaid hcode
  obtain rfl : shown = changes := Except.ok.inj (hshown.symm.trans hresult)
  exact ⟨hfiles, hcode, hresult, houtput, hread, htree⟩

end LinePatch
