import LinePatch.Proofs.Update

/-!
# What a patch amounts to, action by action

Every action of a patch is judged alone, against the files as they were supplied. A patch fails
with the error of its first action that is not applicable, whatever the actions after it are, and
an action before it leaves no mark. If all actions are applicable, what becomes of a file is told
by the last action of its kind on that file: an update is applied to the supplied text, as if there
were no other.

## Main definitions

* `Hunk.applications`: what comes of hunks that are applied one after the other.
* `Action.IsApplicable`, `Action.fault?`: an action judged alone, and what is wrong with it.
* `Changes.Records`: the changes that a list of actions amounts to.

## Main results

* `Action.result_change`: the change of one action.
* `Changes.records_ofList`: the changes of actions on the same files, taken together.
* `result_applyActions`, `applyActions_iff_applicable`: the changes of a patch, or its error.
-/

namespace LinePatch

namespace Hunk

/-- What comes of hunks that are applied one after the other, for each of them. -/
def applications : List Hunk → List String → List Application
  | [], _ => []
  | hunk :: hunks, file => hunk.applyTo file :: applications hunks (hunk.applyTo file).lines

/-- The index and the first recovery of the first hunk that needs one, of hunks that are applied
one after the other and numbered from `start` on. -/
def firstRecovery? (start : Nat) (hunks : List Hunk) (file : List String) :
    Option (Nat × Recovery) :=
  ((applications hunks file).zipIdx start).findSome? fun (application, hunkIndex) =>
    application.recoveries.head?.map (hunkIndex, ·)

/-- The first hunk that needs a recovery is the one in front, or it is found behind it. -/
theorem firstRecovery?_cons (start : Nat) (hunk : Hunk) (hunks : List Hunk) (file : List String) :
    firstRecovery? start (hunk :: hunks) file =
      ((hunk.applyTo file).recoveries.head?.map (start, ·)).or
        (firstRecovery? (start + 1) hunks (hunk.applyTo file).lines) := by
  simp only [firstRecovery?, applications, List.zipIdx_cons, List.findSome?_cons]
  cases (hunk.applyTo file).recoveries.head? <;> rfl

theorem firstRecovery?_eq_none_iff {start : Nat} {hunks : List Hunk} {file : List String} :
    firstRecovery? start hunks file = none ↔
      ∀ application ∈ applications hunks file, application.isClean = true := by
  have hmem : ∀ application, application ∈ applications hunks file ↔
      ∃ entry ∈ (applications hunks file).zipIdx start, entry.1 = application := by
    intro application
    rw [← List.mem_map, List.zipIdx_map_fst]
  simp only [firstRecovery?, List.findSome?_eq_none_iff, Option.map_eq_none_iff,
    List.head?_eq_none_iff, Application.isClean_iff, hmem]
  constructor
  · rintro h application ⟨entry, hentry, rfl⟩
    exact h entry hentry
  · intro h entry hentry
    exact h entry.1 ⟨entry, hentry, rfl⟩

end Hunk

/-! ### One update -/

/-- The lines that hunks make of a file, whatever recoveries that takes. -/
theorem result_updateLines_lenient (path : String) (hunkIndex : Nat) (hunks : List Hunk)
    (file : List String) :
    (updateLines .lenient path hunkIndex hunks file).result =
      .ok (hunks.foldl (fun file hunk => (hunk.applyTo file).lines) file) := by
  induction hunks generalizing hunkIndex file with
  | nil => rfl
  | cons hunk hunks ih =>
    have hlater : (updateLines .lenient path hunkIndex (hunk :: hunks) file).result =
        (updateLines .lenient path (hunkIndex + 1) hunks (hunk.applyTo file).lines).result := rfl
    rw [hlater, ih, List.foldl_cons]

/-- In strict mode the lines are the same, unless a hunk needs a recovery. -/
theorem result_updateLines_strict (path : String) (hunkIndex : Nat) (hunks : List Hunk)
    (file : List String) :
    (updateLines .strict path hunkIndex hunks file).result =
      match Hunk.firstRecovery? hunkIndex hunks file with
      | some (index, recovery) => .error (.hunkRejected path index recovery)
      | none => .ok (hunks.foldl (fun file hunk => (hunk.applyTo file).lines) file) := by
  induction hunks generalizing hunkIndex file with
  | nil => rfl
  | cons hunk hunks ih =>
    rw [Hunk.firstRecovery?_cons]
    cases hrecoveries : (hunk.applyTo file).recoveries with
    | nil =>
      rw [updateLines_cons_of_isClean (Application.isClean_iff.2 hrecoveries), List.foldl_cons]
      exact ih (hunkIndex + 1) (hunk.applyTo file).lines
    | cons recovery more =>
      rw [updateLines_cons_of_strict hrecoveries]
      rfl

/-- The error that hunks amount to when they are applied to a text. -/
def Hunk.rejection? (mode : Mode) (path text : String) (hunks : List Hunk) : Option PatchError :=
  match mode with
  | .lenient => none
  | .strict =>
    (firstRecovery? 0 hunks (Text.lines text)).map fun (hunkIndex, recovery) =>
      .hunkRejected path hunkIndex recovery

/-- **What becomes of a text.** -/
theorem result_updateText (mode : Mode) (path text : String) (hunks : List Hunk) :
    (updateText mode path text hunks).result =
      match Hunk.rejection? mode path text hunks with
      | some error => .error error
      | none => .ok (Hunk.applyAll hunks text) := by
  rw [updateText, Run.result_map]
  cases mode with
  | lenient =>
    rw [result_updateLines_lenient]
    rfl
  | strict =>
    rw [result_updateLines_strict, Hunk.rejection?]
    cases Hunk.firstRecovery? 0 hunks (Text.lines text) with
    | none => rfl
    | some first => rfl

/-! ### One action -/

namespace Action

/-- Whether an action suits the files as they are supplied: what it updates or deletes is there,
what it adds is not, and in strict mode the hunks of an update agree with the file. -/
def IsApplicable (mode : Mode) (files : Files) : Action → Prop
  | update path hunks =>
    ∃ text, files path = some text ∧
      (mode = .lenient ∨
        ∀ application ∈ Hunk.applications hunks (Text.lines text), application.isClean = true)
  | add path _ => files path = none
  | delete path => ∃ text, files path = some text

/-- What is wrong with an action that is not applicable. -/
def fault? (mode : Mode) (files : Files) : Action → Option PatchError
  | update path hunks =>
    match files path with
    | none => some (.missingFile path)
    | some text => Hunk.rejection? mode path text hunks
  | add path _ => if (files path).isSome then some (.fileExists path) else none
  | delete path => if (files path).isSome then none else some (.missingFile path)

theorem fault?_eq_none_iff {mode : Mode} {files : Files} {action : Action} :
    action.fault? mode files = none ↔ action.IsApplicable mode files := by
  cases action with
  | update path hunks =>
    cases hfile : files path with
    | none => simp [fault?, IsApplicable, hfile]
    | some text =>
      cases mode <;>
        simp [fault?, IsApplicable, hfile, Hunk.rejection?, Hunk.firstRecovery?_eq_none_iff]
  | add path content => simp [fault?, IsApplicable]
  | delete path => simp [fault?, IsApplicable, Option.isSome_iff_exists]

/-- The change that an applicable action makes. -/
def outcome (files : Files) : Action → Change
  | update path hunks => .updated path (Hunk.applyAll hunks ((files path).getD ""))
  | add path content => .added path content
  | delete path => .deleted path

/-- **The change of one action**, or what is wrong with it. -/
theorem result_change (mode : Mode) (files : Files) (action : Action) :
    (action.change mode files).result =
      match action.fault? mode files with
      | some error => .error error
      | none => .ok (action.outcome files) := by
  cases action with
  | update path hunks =>
    cases hfile : files path with
    | none =>
      simp only [change, fault?, hfile]
      rfl
    | some text =>
      simp only [change, fault?, outcome, hfile, Option.getD_some, Run.result_map,
        result_updateText]
      cases Hunk.rejection? mode path text hunks <;> rfl
  | add path content =>
    by_cases h : (files path).isSome = true <;> simp [change, fault?, outcome, Run.ofExcept, h]
  | delete path =>
    by_cases h : (files path).isSome = true <;> simp [change, fault?, outcome, Run.ofExcept, h]

end Action

/-- **The changes of a list of actions**, or what is wrong with the first one that is not
applicable. -/
theorem result_changeList (mode : Mode) (files : Files) (actions : List Action) :
    (changeList mode files actions).result =
      match actions.findSome? (Action.fault? mode files) with
      | some error => .error error
      | none => .ok (actions.map (Action.outcome files)) := by
  induction actions with
  | nil => rfl
  | cons action actions ih =>
    rw [changeList, Run.result_bind, action.result_change, List.findSome?_cons, List.map_cons]
    cases action.fault? mode files with
    | some error => rfl
    | none =>
      simp only [Except.bind, Run.result_bind, ih]
      cases actions.findSome? (Action.fault? mode files) <;> rfl

/-! ### The changes of a patch -/

namespace Change

/-- The entry that a change makes among the updated files. -/
def updated? : Change → Option (String × String)
  | updated path text => some (path, text)
  | _ => none

/-- The entry that a change makes among the added files. -/
def added? : Change → Option (String × String)
  | added path text => some (path, text)
  | _ => none

/-- The entry that a change makes among the deleted files. -/
def deleted? : Change → Option (String × Unit)
  | deleted path => some (path, ())
  | _ => none

end Change

theorem Changes.ofList_eq (list : List Change) :
    Changes.ofList list =
      { updated := .ofList (list.filterMap Change.updated?)
        added := .ofList (list.filterMap Change.added?)
        deleted := .ofList (list.filterMap Change.deleted?) } := by
  have hfold : ∀ changes : Changes, list.foldl record changes =
      { updated := (list.filterMap Change.updated?).foldl
          (fun map entry => map.insert entry.1 entry.2) changes.updated
        added := (list.filterMap Change.added?).foldl
          (fun map entry => map.insert entry.1 entry.2) changes.added
        deleted := (list.filterMap Change.deleted?).foldl
          (fun map entry => map.insert entry.1 entry.2) changes.deleted } := by
    induction list with
    | nil => exact fun changes => rfl
    | cons change list ih =>
      intro changes
      rw [List.foldl_cons, ih]
      cases change <;> rfl
  exact hfold {}

/-- The last of the entries that the members of a list make for a path. -/
theorem get?_ofList_filterMap {α β : Type} (pair? : α → Option (String × β)) (list : List α)
    (path : String) :
    (PathMap.ofList (list.filterMap pair?)).get? path =
      list.reverse.findSome? fun member =>
        (pair? member).bind fun entry => if path = entry.1 then some entry.2 else none := by
  rw [PathMap.get?_ofList, ← List.filterMap_reverse]
  induction list.reverse with
  | nil => rfl
  | cons member list ih =>
    cases hpair : pair? member with
    | none => rw [List.filterMap_cons_none hpair, ih, List.findSome?_cons, hpair]; rfl
    | some entry =>
      rw [List.filterMap_cons_some hpair, PathMap.lookup_entry, ih, List.findSome?_cons, hpair]
      by_cases h : path = entry.1 <;> simp [h]

namespace Action

/-- The hunks of an update of this file. -/
def updateOf? (path : String) : Action → Option (List Hunk)
  | update other hunks => if path = other then some hunks else none
  | _ => none

/-- The content of an addition of this file. -/
def contentOf? (path : String) : Action → Option String
  | add other content => if path = other then some content else none
  | _ => none

/-- Whether this is the deletion of this file. -/
def deletionOf? (path : String) : Action → Option Unit
  | delete other => if path = other then some () else none
  | _ => none

theorem updateOf?_eq_some_iff {path : String} {action : Action} {hunks : List Hunk} :
    action.updateOf? path = some hunks ↔ action = update path hunks := by
  cases action <;> simp [updateOf?, eq_comm]

theorem contentOf?_eq_some_iff {path : String} {action : Action} {content : String} :
    action.contentOf? path = some content ↔ action = add path content := by
  cases action <;> simp [contentOf?, eq_comm]

theorem deletionOf?_eq_some_iff {path : String} {action : Action} {u : Unit} :
    action.deletionOf? path = some u ↔ action = delete path := by
  cases action <;> simp [deletionOf?, eq_comm]

end Action

/-! ### What is recorded -/

/-- The changes record a list of actions on these files: which files they update, add and delete,
and, for each file, what the last update of it makes of the supplied text or what the last addition
of it brings. -/
structure Changes.Records (files : Files) (actions : List Action) (changes : Changes) : Prop where
  mem_updated : ∀ path, path ∈ changes.updated.paths ↔ ∃ hunks, Action.update path hunks ∈ actions
  updated : ∀ path, changes.updated.get? path =
    (actions.reverse.findSome? (Action.updateOf? path)).bind fun hunks =>
      (files path).map (Hunk.applyAll hunks)
  mem_added : ∀ path, path ∈ changes.added.paths ↔ ∃ content, Action.add path content ∈ actions
  added : ∀ path, changes.added.get? path = actions.reverse.findSome? (Action.contentOf? path)
  mem_deleted : ∀ path, path ∈ changes.deleted.paths ↔ Action.delete path ∈ actions
  disjoint : ∀ path ∈ changes.added.paths,
    path ∉ changes.updated.paths ∧ path ∉ changes.deleted.paths
  touched_sorted : changes.touched.Pairwise (· < ·)
  mem_touched : ∀ path, path ∈ changes.touched ↔ ∃ action ∈ actions, action.path = path

namespace Changes

variable (files : Files) (actions : List Action) (path : String)

theorem get?_updated_ofList :
    (ofList (actions.map (Action.outcome files))).updated.get? path =
      (actions.reverse.findSome? (Action.updateOf? path)).map fun hunks =>
        Hunk.applyAll hunks ((files path).getD "") := by
  rw [ofList_eq, get?_ofList_filterMap, ← List.map_reverse, List.findSome?_map,
    List.map_findSome?]
  congr 1
  funext action
  cases action with
  | update other hunks =>
    by_cases h : path = other <;>
      simp [Action.outcome, Change.updated?, Action.updateOf?, h]
  | add other content => rfl
  | delete other => rfl

theorem get?_added_ofList :
    (ofList (actions.map (Action.outcome files))).added.get? path =
      actions.reverse.findSome? (Action.contentOf? path) := by
  rw [ofList_eq, get?_ofList_filterMap, ← List.map_reverse, List.findSome?_map]
  congr 1
  funext action
  cases action <;> rfl

theorem get?_deleted_ofList :
    (ofList (actions.map (Action.outcome files))).deleted.get? path =
      actions.reverse.findSome? (Action.deletionOf? path) := by
  rw [ofList_eq, get?_ofList_filterMap, ← List.map_reverse, List.findSome?_map]
  congr 1
  funext action
  cases action <;> rfl

theorem isSome_findSome?_reverse {α β : Type} (f : α → Option β) (list : List α) :
    (list.reverse.findSome? f).isSome ↔ ∃ member ∈ list, ∃ value, f member = some value := by
  rw [List.findSome?_isSome_iff]
  simp only [List.mem_reverse, Option.isSome_iff_exists]

theorem mem_updated_ofList :
    path ∈ (ofList (actions.map (Action.outcome files))).updated.paths ↔
      ∃ hunks, Action.update path hunks ∈ actions := by
  rw [PathMap.mem_paths_iff, get?_updated_ofList, Option.isSome_map, isSome_findSome?_reverse]
  simp only [Action.updateOf?_eq_some_iff]
  constructor
  · rintro ⟨action, hmem, hunks, rfl⟩
    exact ⟨hunks, hmem⟩
  · rintro ⟨hunks, hmem⟩
    exact ⟨_, hmem, hunks, rfl⟩

theorem mem_added_ofList :
    path ∈ (ofList (actions.map (Action.outcome files))).added.paths ↔
      ∃ content, Action.add path content ∈ actions := by
  rw [PathMap.mem_paths_iff, get?_added_ofList, isSome_findSome?_reverse]
  simp only [Action.contentOf?_eq_some_iff]
  constructor
  · rintro ⟨action, hmem, content, rfl⟩
    exact ⟨content, hmem⟩
  · rintro ⟨content, hmem⟩
    exact ⟨_, hmem, content, rfl⟩

theorem mem_deleted_ofList :
    path ∈ (ofList (actions.map (Action.outcome files))).deleted.paths ↔
      Action.delete path ∈ actions := by
  rw [PathMap.mem_paths_iff, get?_deleted_ofList, isSome_findSome?_reverse]
  simp [Action.deletionOf?_eq_some_iff]

variable {files actions}

/-- **The changes that applicable actions make**, each of them alone. -/
theorem records_ofList {mode : Mode} (h : ∀ action ∈ actions, action.IsApplicable mode files) :
    (ofList (actions.map (Action.outcome files))).Records files actions where
  mem_updated := mem_updated_ofList files actions
  updated path := by
    rw [get?_updated_ofList]
    cases hlast : actions.reverse.findSome? (Action.updateOf? path) with
    | none => rfl
    | some hunks =>
      obtain ⟨action, haction, hhunks⟩ := List.exists_of_findSome?_eq_some hlast
      obtain rfl := Action.updateOf?_eq_some_iff.1 hhunks
      obtain ⟨text, htext, -⟩ := h _ (List.mem_reverse.1 haction)
      simp [htext]
  mem_added := mem_added_ofList files actions
  added := get?_added_ofList files actions
  mem_deleted := mem_deleted_ofList files actions
  disjoint path hpath := by
    -- A file that is added is not among the supplied ones, and a file of the other kinds is.
    obtain ⟨content, hadd⟩ := (mem_added_ofList files actions path).1 hpath
    have hnone : files path = none := h _ hadd
    constructor
    · intro hupdated
      obtain ⟨hunks, hupdate⟩ := (mem_updated_ofList files actions path).1 hupdated
      obtain ⟨text, htext, -⟩ := h _ hupdate
      rw [hnone] at htext
      exact nomatch htext
    · intro hdeleted
      obtain ⟨text, htext⟩ := h _ ((mem_deleted_ofList files actions path).1 hdeleted)
      rw [hnone] at htext
      exact nomatch htext
  touched_sorted := PathMap.pairwise_paths _
  mem_touched path := by
    rw [mem_touched_iff, mem_updated_ofList, mem_added_ofList, mem_deleted_ofList]
    constructor
    · rintro (⟨hunks, hmem⟩ | ⟨content, hmem⟩ | hmem)
      all_goals exact ⟨_, hmem, rfl⟩
    · rintro ⟨action, hmem, rfl⟩
      cases action with
      | update other hunks => exact .inl ⟨hunks, hmem⟩
      | add other content => exact .inr (.inl ⟨content, hmem⟩)
      | delete other => exact .inr (.inr hmem)

end Changes

theorem result_applyActions (mode : Mode) (files : Files) (actions : List Action) :
    (applyActions mode files actions).result =
      match actions.findSome? (Action.fault? mode files) with
      | some error => .error error
      | none => .ok (Changes.ofList (actions.map (Action.outcome files))) := by
  rw [applyActions, Run.result_map, Run.result_andReport, result_changeList]
  cases actions.findSome? (Action.fault? mode files) <;> rfl

/-- The changes of a patch that succeeds record its actions. -/
theorem Changes.records_of_result {mode : Mode} {files : Files} {actions : List Action}
    {changes : Changes} (h : (applyActions mode files actions).result = .ok changes) :
    changes.Records files actions := by
  rw [result_applyActions] at h
  cases hfault : actions.findSome? (Action.fault? mode files) with
  | some error =>
    rw [hfault] at h
    exact nomatch h
  | none =>
    rw [hfault] at h
    obtain rfl := Except.ok.inj h
    exact records_ofList fun action haction =>
      Action.fault?_eq_none_iff.1 (List.findSome?_eq_none_iff.1 hfault action haction)

/-- **A patch, told by its actions, each judged alone.** It succeeds exactly if all its actions are
applicable to the supplied files. It fails exactly with what is wrong with the first action that is
not. If it succeeds, its changes record what the last action of each kind does to each file. -/
theorem applyActions_iff_applicable (mode : Mode) (files : Files) (actions : List Action) :
    ((∃ changes, (applyActions mode files actions).result = .ok changes) ↔
      ∀ action ∈ actions, action.IsApplicable mode files) ∧
    (∀ error, (applyActions mode files actions).result = .error error ↔
      ∃ before action after, actions = before ++ action :: after ∧
        (∀ earlier ∈ before, earlier.IsApplicable mode files) ∧
        action.fault? mode files = some error) ∧
    ∀ changes, (applyActions mode files actions).result = .ok changes →
      changes.Records files actions := by
  have hnone : actions.findSome? (Action.fault? mode files) = none ↔
      ∀ action ∈ actions, action.IsApplicable mode files := by
    simp only [List.findSome?_eq_none_iff, Action.fault?_eq_none_iff]
  have hsome : ∀ error, actions.findSome? (Action.fault? mode files) = some error ↔
      ∃ before action after, actions = before ++ action :: after ∧
        (∀ earlier ∈ before, earlier.IsApplicable mode files) ∧
        action.fault? mode files = some error := by
    intro error
    simp only [List.findSome?_eq_some_iff, Action.fault?_eq_none_iff, and_comm]
  refine ⟨?_, ?_, fun changes h => Changes.records_of_result h⟩
  · rw [← hnone, result_applyActions]
    cases actions.findSome? (Action.fault? mode files) <;> simp
  · intro error
    rw [← hsome, result_applyActions]
    cases actions.findSome? (Action.fault? mode files) <;> simp

/-- A file is updated twice and deleted, and another one is added twice: of the updates and of the
additions the second ones count. -/
theorem applyActions_iff_applicable_repeated_paths :
    let files : Files := fun path => if path = "f" then some "base" else none
    let actions : List Action := [.update "f" [⟨none, [.add "first"]⟩], .add "g" "first",
      .delete "f", .update "f" [⟨none, [.remove "base", .add "second"]⟩], .add "g" "second"]
    let changes : Changes :=
      { updated := PathMap.empty.insert "f" "second"
        added := PathMap.empty.insert "g" "second"
        deleted := PathMap.empty.insert "f" () }
    (applyActions .strict files actions).result = .ok changes ∧ changes.Records files actions := by
  intro files actions changes
  have hresult : (applyActions .strict files actions).result = .ok changes := by
    rw [Run.result_eq_ok_iff]
    decide +kernel
  exact ⟨hresult, (applyActions_iff_applicable .strict files actions).2.2 changes hresult⟩

end LinePatch
