import LinePatch.Proofs.Apply.Actions
import LinePatch.Proofs.Command.Execute
import LinePatch.Proofs.Command.Loading
import LinePatch.Proofs.Command.Staging

/-!
# What a command may touch

A patch that is applied to a directory touches only files that it names, and all of them are below
that directory. It makes directories only on the way to files that it writes, and removes none. This
holds however the command ends and by whichever method it commits, so that no temporary file
remains. If only one path of the patch leads out of the directory, nothing is touched at all.

## Main definitions

* `Tree.TouchedBy`: the changes of a tree that a list of actions may make.

## Main results

* `isConfined_of_loadFiles`: every path of a patch is checked before its actions are applied.
* `touchedBy_commit`: what a commit touches.
* `touchedBy_execute`: what the command touches.
-/

namespace LinePatch

open LinePatch.Tree (ChangesOnly)

/-! ### Paths that are checked -/

/-- **Every path of a patch is checked.** -/
theorem isConfined_of_loadFiles {tree : Tree} {root : String} {actions : List Action}
    {files : PathMap String} (h : loadFiles tree root actions = .ok files) :
    ∀ action ∈ actions, Path.isConfined action.path = true := by
  intro action haction
  have hloaded := (loadFiles_eq_ok_iff.1 h).1 action haction
  exact (exists_loadedText_iff.1 ⟨_, hloaded⟩).1

/-! ### What a commit touches -/

/-- Whether an action writes its file. -/
def Action.IsWrite : Action → Prop
  | update .. | add .. => True
  | delete .. => False

/-- The second tree differs from the first one only in files that are named by the actions, below
the directory, and in directories that are new and above files that the actions write. All
directories of the first tree remain. -/
def Tree.TouchedBy (root : String) (actions : List Action) (before after : Tree) : Prop :=
  ChangesOnly
    (fun place => place.IsBelow (Place.ofPath before.home root) ∧
      ∃ action ∈ actions, place = Place.ofPath before.home (Path.join root action.path))
    (fun place => ∃ action ∈ actions, action.IsWrite ∧
      Place.IsAbove before.home place (Path.join root action.path))
    before after

variable {tree : Tree} {root : String} {changes : Changes} {files : Files} {actions : List Action}

/-- What is planned for the changes of actions stays within what the actions name. -/
theorem staysIn_of_plan (h : changes.Records files actions) {plan : Commit.Plan}
    (hplan : Commit.plan tree root changes = .ok plan) :
    plan.StaysIn tree.home
      (fun place => place.IsBelow (Place.ofPath tree.home root) ∧
        ∃ action ∈ actions, place = Place.ofPath tree.home (Path.join root action.path))
      (fun place => ∃ action ∈ actions, action.IsWrite ∧
        Place.IsAbove tree.home place (Path.join root action.path)) := by
  obtain ⟨rfl, hentries, hpaths⟩ := Commit.plan_eq_ok hplan
  refine (Commit.Plan.staysIn_ofChanges tree.home root hentries hpaths).mono ?_ ?_
  · rintro place ⟨hbelow, path, hpath, hplace⟩
    obtain ⟨action, haction, rfl⟩ := (h.mem_touched path).1 hpath
    exact ⟨hbelow, action, haction, hplace⟩
  · rintro place ⟨path, hpath, habove⟩
    rcases List.mem_append.1 hpath with hupdated | hadded
    · obtain ⟨hunks, haction⟩ := (h.mem_updated path).1 hupdated
      exact ⟨_, haction, trivial, habove⟩
    · obtain ⟨content, haction⟩ := (h.mem_added path).1 hadded
      exact ⟨_, haction, trivial, habove⟩

/-- **A commit touches what the actions name**, also by way of temporary files, of which none
remains. -/
theorem touchedBy_commit (h : changes.Records files actions) (method : Commit.Method) :
    Tree.TouchedBy root actions tree (method.commit root changes tree).tree := by
  cases method with
  | inPlace =>
    simp only [Commit.Method.commit, commit]
    cases hplan : Commit.plan tree root changes with
    | error refusal => exact .refl tree
    | ok plan => exact (staysIn_of_plan h hplan).changesOnly_carryOut
  | staged stager =>
    simp only [Commit.Method.commit, stagedCommit]
    cases hplan : Commit.plan tree root changes with
    | error refusal => exact .refl tree
    | ok plan => exact (staysIn_of_plan h hplan).changesOnly_carryOutStaged stager

/-! ### What the command touches -/

/-- **What the command touches.** However a request to apply a patch ends, and by whichever method
it commits, it touches no more than the actions of the patch name, and nothing if the patch cannot
be read. If it goes by way of temporary files, none of these remains. It touches nothing either, and
is refused, if the path of one of the actions starts at the top, is blank or goes up. -/
theorem touchedBy_execute (method : Commit.Method) (input : Input) (choices : Choices)
    (root : String) (extract dryRun json eventJson : Bool) (verbosity : Nat)
    (standardInput : ByteArray) {tree after : Tree} {report : Report}
    (h : (Request.apply input choices root extract dryRun json eventJson).execute method verbosity
      standardInput tree = (report, after)) :
    match (requestedActions input choices extract standardInput tree).result with
    | .error _ => report.exitCode = 1 ∧ after = tree
    | .ok (_, actions) =>
      Tree.TouchedBy root actions tree after ∧
        ((∃ action ∈ actions, Path.isAbsolute action.path = true ∨ Text.trim action.path = "" ∨
            ".." ∈ Path.names action.path) →
          report.exitCode = 1 ∧ after = tree) := by
  have hends := Request.ends_execute method input choices root extract standardInput tree dryRun
    json eventJson verbosity
  rw [h] at hends
  cases hread : (requestedActions input choices extract standardInput tree).result with
  | error refusal =>
    refine hends.eq_of_forall_ne fun changes hresult => ?_
    obtain ⟨settings, actions, -, hactions, -⟩ := requested_result_eq_ok_iff.1 hresult
    rw [hread] at hactions
    exact nomatch hactions
  | ok request =>
    obtain ⟨settings, actions⟩ := request
    -- A request that comes to its changes has loaded the files of all actions.
    have hchanges : ∀ {changes},
        (requested input choices root extract standardInput tree).result = .ok changes →
        (∃ files, changes.Records files actions) ∧
          ∀ action ∈ actions, Path.isConfined action.path = true := by
      intro changes hresult
      obtain ⟨_, _, files, hactions, hfiles, happlied⟩ := requested_result_eq_ok_iff.1 hresult
      obtain ⟨rfl, rfl⟩ := Prod.mk.inj (Except.ok.inj (hread.symm.trans hactions))
      exact ⟨⟨_, Changes.records_of_result happlied⟩, isConfined_of_loadFiles hfiles⟩
    refine ⟨?_, fun hpath => hends.eq_of_forall_ne fun changes hresult => ?_⟩
    · rcases hends.eq_or_eq_commit with rfl | ⟨changes, hresult, rfl⟩
      · exact .refl after
      · obtain ⟨⟨files, hrecords⟩, -⟩ := hchanges hresult
        exact touchedBy_commit hrecords method
    · obtain ⟨action, haction, hstray⟩ := hpath
      obtain ⟨hblank, habsolute, hup⟩ :=
        Path.isConfined_iff.1 ((hchanges hresult).2 action haction)
      rcases hstray with hstray | hstray | hstray
      · rw [hstray] at habsolute
        exact nomatch habsolute
      · exact hblank hstray
      · exact hup hstray

/-- A patch that updates a file and adds one in a new directory touches no more than these, by way
of temporary files. With one more action, on a path that goes up, it touches nothing. -/
theorem touchedBy_execute_stray_path :
    let lines := ["*** Begin Patch", "*** Update File: a", "+x", "*** Add File: n/c", "+y"]
    let input : Input := ⟨none, some (Text.unlines lines)⟩
    let stray : Input := ⟨none, some (Text.unlines (lines ++ ["*** Delete File: n/../b"]))⟩
    let choices : Choices := ⟨none, false, false, false⟩
    let tree : Tree := ⟨["home"], [(["home"], .directory), (["home", "a"], .file "z".toUTF8),
      (["home", "b"], .file "w".toUTF8)]⟩
    let actions : List Action := [.update "a" [⟨none, [.add "x"]⟩], .add "n/c" "y"]
    let request (input : Input) : Request := .apply input choices "." false false false false
    let method : Commit.Method := .staged .unspelled
    ((request input).execute method 0 ⟨#[]⟩ tree).1.exitCode = 0 ∧
      Tree.TouchedBy "." actions tree ((request input).execute method 0 ⟨#[]⟩ tree).2 ∧
      ((request stray).execute method 0 ⟨#[]⟩ tree).1.exitCode = 1 ∧
      ((request stray).execute method 0 ⟨#[]⟩ tree).2 = tree := by
  intro lines input stray choices tree actions request method
  have hread : (requestedActions input choices false ⟨#[]⟩ tree).result = .ok ({}, actions) := by
    rw [Run.result_eq_ok_iff]
    decide +kernel
  have hstray : (requestedActions stray choices false ⟨#[]⟩ tree).result =
      .ok ({}, actions ++ [.delete "n/../b"]) := by
    rw [Run.result_eq_ok_iff]
    decide +kernel
  have hrun := (Prod.eta ((request input).execute method 0 ⟨#[]⟩ tree)).symm
  have hrefused := (Prod.eta ((request stray).execute method 0 ⟨#[]⟩ tree)).symm
  have htouched := touchedBy_execute method input choices "." false false false false 0 ⟨#[]⟩ hrun
  have hnothing :=
    touchedBy_execute method stray choices "." false false false false 0 ⟨#[]⟩ hrefused
  rw [hread] at htouched
  rw [hstray] at hnothing
  exact ⟨by decide +kernel, htouched.1, hnothing.2 ⟨.delete "n/../b", by simp, by decide +kernel⟩⟩

end LinePatch
