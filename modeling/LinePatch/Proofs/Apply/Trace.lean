import LinePatch.Proofs.Apply.Actions

/-!
# What is reported while a patch is applied

The reports on a patch tell how far it came. A hunk is reported when it is applied, with its
recoveries in front of it, so the updates of a patch report one block of hunks each, in the order
of the actions. What became of the files is reported when all blocks are complete. A patch that is
refused breaks off in the block of the action that fails, in front of the hunk that is at fault,
and the last report gives the reason.

## Main definitions

* `Action.block`, `Action.fileEvent`: the reports on an action that is carried out.
* `Action.Stops`: the reports on an action that fails, and its error.
* `IsTrace`: the runs that a document can have.

## Main results

* `updateLines_trace`: the reports on the hunks of an update.
* `Action.change_trace`, `changeList_trace`: the reports on one action, and on a list of actions.
* `Action.Stops.unique`, `IsTrace.unique`: an action stops in one way, and a document has one
  trace.
* `isTrace_applyDocument`: the reports on a document.
-/

namespace LinePatch

/-- The reports on hunks that are applied one after the other and numbered from `hunkIndex` on: for
each of them one report on every recovery, in their order, and then one that it is applied. -/
def hunkEvents (path : String) (hunkIndex : Nat) (applications : List Application) : List Event :=
  (applications.zipIdx hunkIndex).flatMap fun (application, hunkIndex) =>
    application.recoveries.map (.fuzzyRecovery path hunkIndex) ++
      [.hunkApplied path hunkIndex application.strategy]

/-- Whether a report tells how a patch ended: what became of a file, or why the patch was
refused. -/
def Event.isClosing : Event → Bool
  | fileUpdated _ | fileAdded _ | fileDeleted _ | rejected _ => true
  | parsed _ | hunkApplied .. | fuzzyRecovery .. => false

namespace Action

/-- The reports on the hunks of an action, all of which are applied. -/
def block (files : Files) : Action → List Event
  | update path hunks =>
    hunkEvents path 0 (Hunk.applications hunks (Text.lines ((files path).getD "")))
  | add _ _ | delete _ => []

/-- The report on what became of the file of an action. -/
def fileEvent : Action → Event
  | update path _ => .fileUpdated path
  | add path _ => .fileAdded path
  | delete path => .fileDeleted path

/-- An action that fails, with the reports on it up to its failure and the error. -/
inductive Stops (mode : Mode) (files : Files) : Action → List Event → PatchError → Prop
  | nothingToUpdate {path : String} {hunks : List Hunk} (missing : files path = none) :
      Stops mode files (.update path hunks) [] (.missingFile path)
  | nothingToDelete {path : String} (missing : files path = none) :
      Stops mode files (.delete path) [] (.missingFile path)
  | alreadyThere {path content text : String} (present : files path = some text) :
      Stops mode files (.add path content) [] (.fileExists path)
  | hunk {path text : String} {hunks : List Hunk} {above below : List Application}
      {application : Application} {recovery : Recovery} (strict : mode = .strict)
      (present : files path = some text)
      (split : Hunk.applications hunks (Text.lines text) = above ++ application :: below)
      (clean : ∀ earlier ∈ above, earlier.isClean = true)
      (first : application.recoveries.head? = some recovery) :
      Stops mode files (.update path hunks) (hunkEvents path 0 above)
        (.hunkRejected path above.length recovery)

end Action

/-- The runs that a document can have: it is not read, or all of its actions are carried out, or
it is refused on account of the first action that fails. -/
inductive IsTrace (settings : Settings) (files : Files) (document : String) :
    Run PatchError Changes → Prop
  | unread {error : Document.SyntaxError}
      (unread : Document.actions settings document = .error error) :
      IsTrace settings files document
        ⟨[.rejected (PatchError.syntaxError error).message], .error (.syntaxError error)⟩
  | carriedOut {actions : List Action} (read : Document.actions settings document = .ok actions)
      (applicable : ∀ action ∈ actions, action.IsApplicable settings.mode files) :
      IsTrace settings files document
        ⟨.parsed actions.length ::
            (actions.flatMap (Action.block files) ++ actions.map Action.fileEvent),
          .ok (Changes.ofList (actions.map (Action.outcome files)))⟩
  | refused {before after : List Action} {action : Action} {events : List Event}
      {error : PatchError}
      (read : Document.actions settings document = .ok (before ++ action :: after))
      (applicable : ∀ earlier ∈ before, earlier.IsApplicable settings.mode files)
      (stops : action.Stops settings.mode files events error) :
      IsTrace settings files document
        ⟨.parsed (before ++ action :: after).length ::
            (before.flatMap (Action.block files) ++ events ++ [.rejected error.message]),
          .error error⟩

/-! ### One hunk after the other -/

/-- The reports that the application of a hunk makes come first. -/
theorem hunkEvents_cons (path : String) (hunkIndex : Nat) (application : Application)
    (applications : List Application) :
    hunkEvents path hunkIndex (application :: applications) =
      application.events path hunkIndex ++ hunkEvents path (hunkIndex + 1) applications := by
  simp [hunkEvents, Application.events, List.zipIdx_cons]

/-- **The reports on the hunks of an update.** All hunks are reported, unless the mode is strict
and one of them is the first to need a recovery: then only those in front of it are. -/
theorem updateLines_trace (mode : Mode) (path : String) (hunkIndex : Nat) (hunks : List Hunk)
    (file : List String) :
    (∃ lines, updateLines mode path hunkIndex hunks file =
        ⟨hunkEvents path hunkIndex (Hunk.applications hunks file), .ok lines⟩) ∨
      mode = .strict ∧ ∃ above application below recovery,
        Hunk.applications hunks file = above ++ application :: below ∧
        (∀ earlier ∈ above, earlier.isClean = true) ∧
        application.recoveries.head? = some recovery ∧
        updateLines mode path hunkIndex hunks file =
          ⟨hunkEvents path hunkIndex above,
            .error (.hunkRejected path (hunkIndex + above.length) recovery)⟩ := by
  induction hunks generalizing hunkIndex file with
  | nil => exact .inl ⟨file, rfl⟩
  | cons hunk hunks ih =>
    by_cases happlied : mode = .lenient ∨ (hunk.applyTo file).isClean = true
    · rw [updateLines_cons_of_applied happlied, Hunk.applications]
      rcases ih (hunkIndex + 1) (hunk.applyTo file).lines with
        ⟨lines, hrun⟩ | ⟨hstrict, above, application, below, recovery, hsplit, hclean, hfirst, hrun⟩
      · refine .inl ⟨lines, ?_⟩
        rw [hrun, hunkEvents_cons]
        rfl
      · have hhunk : (hunk.applyTo file).isClean = true := by simpa [hstrict] using happlied
        refine .inr ⟨hstrict, hunk.applyTo file :: above, application, below, recovery, ?_,
          List.forall_mem_cons.2 ⟨hhunk, hclean⟩, hfirst, ?_⟩
        · rw [hsplit, List.cons_append]
        · rw [hrun, hunkEvents_cons, List.length_cons, Nat.add_right_comm, Nat.add_assoc]
          rfl
    · rw [not_or] at happlied
      have hstrict : mode = .strict := by
        cases mode with
        | lenient => exact absurd rfl happlied.1
        | strict => rfl
      cases hrecoveries : (hunk.applyTo file).recoveries with
      | nil => exact absurd (Application.isClean_iff.2 hrecoveries) happlied.2
      | cons recovery more =>
        refine .inr ⟨hstrict, [], hunk.applyTo file, _, recovery, rfl, by simp,
          by rw [hrecoveries, List.head?_cons], ?_⟩
        rw [hstrict, updateLines_cons_of_strict hrecoveries]
        rfl

/-! ### One action after the other -/

theorem Action.event_outcome (files : Files) (action : Action) :
    (action.outcome files).event = action.fileEvent := by
  cases action <;> rfl

/-- **The reports on one action**: it is carried out with all its hunks, or it stops. -/
theorem Action.change_trace (mode : Mode) (files : Files) (action : Action) :
    (action.IsApplicable mode files ∧
        action.change mode files = ⟨action.block files, .ok (action.outcome files)⟩) ∨
      ∃ events error, action.Stops mode files events error ∧
        action.change mode files = ⟨events, .error error⟩ := by
  -- How the action ends is known, so that a run without error is the one that is looked for.
  have hends (change : Change) (h : action.change mode files = ⟨action.block files, .ok change⟩) :
      action.IsApplicable mode files ∧
        action.change mode files = ⟨action.block files, .ok (action.outcome files)⟩ := by
    have hresult := action.result_change mode files
    rw [h] at hresult
    cases hfault : action.fault? mode files with
    | some error => simp [hfault] at hresult
    | none =>
      rw [hfault] at hresult
      exact ⟨fault?_eq_none_iff.1 hfault, by rw [h, Except.ok.inj hresult]⟩
  cases action with
  | update path hunks =>
    cases hfile : files path with
    | none =>
      refine .inr ⟨_, _, .nothingToUpdate hfile, ?_⟩
      simp only [change, hfile]
      rfl
    | some text =>
      have hchange : Action.change mode files (.update path hunks) =
          .updated path <$> updateText mode path text hunks := by
        simp only [change, hfile]
      rcases updateLines_trace mode path 0 hunks (Text.lines text) with
        ⟨lines, hrun⟩ | ⟨hstrict, above, application, below, recovery, hsplit, hclean, hfirst, hrun⟩
      · refine .inl (hends (.updated path (Text.unlines lines)) ?_)
        rw [hchange, updateText, hrun, Run.map_ok, Run.map_ok, block, hfile, Option.getD_some]
      · refine .inr ⟨_, _, .hunk hstrict hfile hsplit hclean hfirst, ?_⟩
        rw [hchange, updateText, hrun, Run.map_error, Run.map_error, Nat.zero_add]
  | add path content =>
    cases hfile : files path with
    | none => exact .inl (hends (.added path content) (by simp [change, hfile]; rfl))
    | some text =>
      exact .inr ⟨_, _, .alreadyThere hfile, by simp [change, hfile]; rfl⟩
  | delete path =>
    cases hfile : files path with
    | none => exact .inr ⟨_, _, .nothingToDelete hfile, by simp [change, hfile]; rfl⟩
    | some text => exact .inl (hends (.deleted path) (by simp [change, hfile]; rfl))

/-- **The reports on a list of actions**, the files apart: all blocks in the order of the actions,
or those of the actions in front of the first one that stops, and what it reports. -/
theorem changeList_trace (mode : Mode) (files : Files) (actions : List Action) :
    ((∀ action ∈ actions, action.IsApplicable mode files) ∧
        changeList mode files actions =
          ⟨actions.flatMap (Action.block files), .ok (actions.map (Action.outcome files))⟩) ∨
      ∃ before action after events error, actions = before ++ action :: after ∧
        (∀ earlier ∈ before, earlier.IsApplicable mode files) ∧
        action.Stops mode files events error ∧
        changeList mode files actions =
          ⟨before.flatMap (Action.block files) ++ events, .error error⟩ := by
  induction actions with
  | nil => exact .inl ⟨by simp, rfl⟩
  | cons action actions ih =>
    rw [changeList]
    rcases action.change_trace mode files with
      ⟨happlicable, hchange⟩ | ⟨events, error, hstops, hchange⟩
    · rw [hchange, Run.bind_ok]
      rcases ih with
        ⟨hall, hrun⟩ | ⟨before, failing, after, events, error, rfl, hall, hstops, hrun⟩
      · refine .inl ⟨List.forall_mem_cons.2 ⟨happlicable, hall⟩, ?_⟩
        rw [hrun, Run.bind_ok]
        simp
      · refine .inr ⟨action :: before, failing, after, events, error, rfl,
          List.forall_mem_cons.2 ⟨happlicable, hall⟩, hstops, ?_⟩
        rw [hrun, Run.bind_error]
        simp
    · rw [hchange, Run.bind_error]
      exact .inr ⟨[], action, actions, events, error, rfl, by simp, hstops, rfl⟩

/-! ### The whole document -/

theorem isTrace_run (settings : Settings) (files : Files) (document : String) :
    IsTrace settings files document (applyDocument settings files document) := by
  rw [applyDocument, readActions, Run.ofExcept]
  cases hread : Document.actions settings document with
  | error error => exact .unread hread
  | ok actions =>
    rw [Run.mapError_ok, Run.andReport_ok, Run.bind_ok, applyActions]
    rcases changeList_trace settings.mode files actions with
      ⟨hall, hrun⟩ | ⟨before, failing, after, events, error, rfl, hall, hstops, hrun⟩
    · rw [hrun, Run.andReport_ok, Run.map_ok]
      have hevents : (actions.map (Action.outcome files)).map Change.event =
          actions.map Action.fileEvent := by
        simp [Action.event_outcome]
      rw [hevents]
      exact .carriedOut hread hall
    · rw [hrun, Run.andReport_error, Run.map_error]
      exact .refused hread hall hstops

/-- Two ways of finding the first member of a list that has not a property are one. -/
theorem eq_of_append_cons_eq {α : Type} {p : α → Prop} {front other below rest : List α}
    {first next : α} (h : front ++ first :: below = other ++ next :: rest)
    (hfront : ∀ member ∈ front, p member) (hfirst : ¬ p first)
    (hother : ∀ member ∈ other, p member) (hnext : ¬ p next) :
    front = other ∧ first = next := by
  induction front generalizing other with
  | nil =>
    cases other with
    | nil => exact ⟨rfl, (List.cons.inj h).1⟩
    | cons member other =>
      obtain ⟨rfl, -⟩ := List.cons.inj h
      exact absurd (hother first List.mem_cons_self) hfirst
  | cons member front ih =>
    cases other with
    | nil =>
      obtain ⟨rfl, -⟩ := List.cons.inj h
      exact absurd (hfront member List.mem_cons_self) hnext
    | cons member' other =>
      obtain ⟨rfl, hrest⟩ := List.cons.inj h
      obtain ⟨rfl, rfl⟩ := ih hrest (List.forall_mem_cons.1 hfront).2
        (List.forall_mem_cons.1 hother).2
      exact ⟨rfl, rfl⟩

namespace Action.Stops

variable {mode : Mode} {files : Files} {action : Action} {events : List Event}
  {error : PatchError}

/-- An action that stops is not applicable. -/
theorem not_isApplicable (h : action.Stops mode files events error) :
    ¬ action.IsApplicable mode files := by
  cases h with
  | nothingToUpdate missing | nothingToDelete missing => simp [IsApplicable, missing]
  | alreadyThere present => simp [IsApplicable, present]
  | hunk strict present split clean first =>
    rintro ⟨_, hpresent, hmode⟩
    obtain rfl := Option.some.inj (present.symm.trans hpresent)
    have hclean := hmode.resolve_left (by simp [strict])
    rw [split, List.forall_mem_append, List.forall_mem_cons] at hclean
    exact Application.not_isClean_of_head? first hclean.2.1

/-- An action stops in one way only. -/
theorem unique {events' : List Event} {error' : PatchError}
    (h : action.Stops mode files events error) (h' : action.Stops mode files events' error') :
    events = events' ∧ error = error' := by
  cases h with
  | nothingToUpdate missing =>
    cases h' with
    | nothingToUpdate => exact ⟨rfl, rfl⟩
    | hunk _ present => simp [missing] at present
  | nothingToDelete | alreadyThere => cases h'; exact ⟨rfl, rfl⟩
  | hunk strict present split clean first =>
    cases h' with
    | nothingToUpdate missing => simp [missing] at present
    | hunk strict' present' split' clean' first' =>
      obtain rfl := Option.some.inj (present.symm.trans present')
      obtain ⟨rfl, rfl⟩ := eq_of_append_cons_eq (split.symm.trans split') clean
        (Application.not_isClean_of_head? first) clean' (Application.not_isClean_of_head? first')
      obtain rfl := Option.some.inj (first.symm.trans first')
      exact ⟨rfl, rfl⟩

end Action.Stops

theorem isClosing_of_mem_hunkEvents {path : String} {hunkIndex : Nat}
    {applications : List Application} {event : Event}
    (h : event ∈ hunkEvents path hunkIndex applications) : event.isClosing = false := by
  obtain ⟨⟨application, index⟩, -, hevent⟩ := List.mem_flatMap.1 h
  simp only [List.mem_append, List.mem_map, List.mem_singleton] at hevent
  rcases hevent with ⟨recovery, -, rfl⟩ | rfl <;> rfl

theorem Action.isClosing_of_mem_block {files : Files} {action : Action} {event : Event}
    (h : event ∈ action.block files) : event.isClosing = false := by
  cases action with
  | update path hunks => exact isClosing_of_mem_hunkEvents h
  | add | delete => simp [block] at h

theorem Action.Stops.isClosing_of_mem {mode : Mode} {files : Files} {action : Action}
    {events : List Event} {error : PatchError} (h : action.Stops mode files events error)
    {event : Event} (hevent : event ∈ events) : event.isClosing = false := by
  cases h with
  | hunk => exact isClosing_of_mem_hunkEvents hevent
  | _ => simp at hevent

namespace IsTrace

variable {settings : Settings} {files : Files} {document : String}
  {run other : Run PatchError Changes}

/-- A document has one trace only. -/
theorem unique (h : IsTrace settings files document run)
    (hother : IsTrace settings files document other) : run = other := by
  cases h with
  | unread hread =>
    cases hother with
    | unread hread' => rw [Except.error.inj (hread.symm.trans hread')]
    | carriedOut hread' | refused hread' => simp [hread] at hread'
  | carriedOut hread happlicable =>
    cases hother with
    | unread hread' => simp [hread] at hread'
    | carriedOut hread' => rw [Except.ok.inj (hread.symm.trans hread')]
    | refused hread' _ hstops =>
      rw [Except.ok.inj (hread.symm.trans hread')] at happlicable
      exact absurd (happlicable _ (by simp)) hstops.not_isApplicable
  | refused hread happlicable hstops =>
    cases hother with
    | unread hread' => simp [hread] at hread'
    | carriedOut hread' happlicable' =>
      rw [← Except.ok.inj (hread.symm.trans hread')] at happlicable'
      exact absurd (happlicable' _ (by simp)) hstops.not_isApplicable
    | refused hread' happlicable' hstops' =>
      have hactions := Except.ok.inj (hread.symm.trans hread')
      obtain ⟨rfl, rfl⟩ := eq_of_append_cons_eq hactions happlicable hstops.not_isApplicable
        happlicable' hstops'.not_isApplicable
      obtain ⟨rfl, rfl⟩ := hstops.unique hstops'
      rw [hactions]

/-- A run that ends with an error reports it last, and before that nothing on how it ended. -/
theorem events_of_error (h : IsTrace settings files document run) {error : PatchError}
    (herror : run.result = .error error) :
    ∃ front, run.events = front ++ [.rejected error.message] ∧
      ∀ event ∈ front, event.isClosing = false := by
  cases h with
  | unread unread =>
    obtain rfl := Except.error.inj herror
    exact ⟨[], rfl, by simp⟩
  | carriedOut => simp at herror
  | refused read applicable stops =>
    obtain rfl := Except.error.inj herror
    refine ⟨_, List.cons_append.symm, ?_⟩
    simp only [List.forall_mem_cons, List.forall_mem_append, List.forall_mem_flatMap]
    exact ⟨rfl, fun _ _ _ => Action.isClosing_of_mem_block, fun _ => stops.isClosing_of_mem⟩

theorem rejected_mem_iff (h : IsTrace settings files document run) :
    (∃ reason, .rejected reason ∈ run.events) ↔ ∃ error, run.result = .error error := by
  constructor
  · rintro ⟨reason, hmem⟩
    cases h with
    | unread => exact ⟨_, rfl⟩
    | refused => exact ⟨_, rfl⟩
    | carriedOut =>
      rcases List.mem_cons.1 hmem with hmem | hmem
      · simp at hmem
      rcases List.mem_append.1 hmem with hmem | hmem
      · obtain ⟨action, -, hmem⟩ := List.mem_flatMap.1 hmem
        simpa [Event.isClosing] using Action.isClosing_of_mem_block hmem
      · obtain ⟨action, -, hevent⟩ := List.mem_map.1 hmem
        cases action <;> simp [Action.fileEvent] at hevent
  · rintro ⟨error, herror⟩
    obtain ⟨front, hevents, -⟩ := h.events_of_error herror
    exact ⟨error.message, by simp [hevents]⟩

end IsTrace

/-- **The reports on a document.** Its run is the one trace that there is. The patch is reported
to be refused exactly if it is, and then once, with its error, when all else is reported, and no
report tells that a file was changed. -/
theorem isTrace_applyDocument (settings : Settings) (files : Files) (document : String) :
    (∀ run, IsTrace settings files document run ↔ run = applyDocument settings files document) ∧
      ((∃ reason, .rejected reason ∈ (applyDocument settings files document).events) ↔
        ∃ error, (applyDocument settings files document).result = .error error) ∧
      ∀ error, (applyDocument settings files document).result = .error error →
        ∃ front, (applyDocument settings files document).events =
            front ++ [.rejected error.message] ∧
          ∀ event ∈ front, event.isClosing = false := by
  have htrace := isTrace_run settings files document
  refine ⟨fun run => ⟨fun h => h.unique htrace, ?_⟩, htrace.rejected_mem_iff,
    fun error => htrace.events_of_error⟩
  rintro rfl
  exact htrace

/-- A patch adds a file and updates another one with two hunks, of which the second needs two
recoveries. If these are tolerated, both are reported in front of the hunk. In strict mode the patch
is refused on account of this hunk: neither file is reported, the hunk in front is. -/
theorem isTrace_applyDocument_two_recoveries :
    let document := Text.unlines ["*** Begin Patch", "*** Add File: b", "+", "*** Update File: a",
      "-x", "+z", "@@", " w", "-q", "*** End Patch"]
    let files : Files := fun path => if path = "a" then some "x" else none
    let changes : Changes :=
      { updated := PathMap.empty.insert "a" "w\nz", added := PathMap.empty.insert "b" "" }
    let unkept : Recovery := .contextMismatch 0 "w" (some "z")
    let rejected : PatchError := .hunkRejected "a" 1 unkept
    let strict := applyDocument { mode := .strict } files document
    IsTrace {} files document
        ⟨[.parsed 2, .hunkApplied "a" 0 (.replace 0 1), .fuzzyRecovery "a" 1 unkept,
          .fuzzyRecovery "a" 1 (.removalSkipped 1 "q" (some "z")), .hunkApplied "a" 1 .positional,
          .fileAdded "b", .fileUpdated "a"], .ok changes⟩ ∧
      strict.events =
        [.parsed 2, .hunkApplied "a" 0 (.replace 0 1), .rejected rejected.message] ∧
      ∃ error front, strict.result = .error error ∧
        strict.events = front ++ [.rejected error.message] ∧
        ∀ event ∈ front, event.isClosing = false := by
  intro document files changes unkept rejected strict
  have hlenient : (applyDocument {} files document).events =
      [.parsed 2, .hunkApplied "a" 0 (.replace 0 1), .fuzzyRecovery "a" 1 unkept,
        .fuzzyRecovery "a" 1 (.removalSkipped 1 "q" (some "z")), .hunkApplied "a" 1 .positional,
        .fileAdded "b", .fileUpdated "a"] := by
    decide +kernel
  have hchanges : (applyDocument {} files document).result = .ok changes := by
    rw [Run.result_eq_ok_iff]
    decide +kernel
  have hstrict : strict.events =
      [.parsed 2, .hunkApplied "a" 0 (.replace 0 1), .rejected rejected.message] := by
    decide +kernel
  obtain ⟨htrace, -, -⟩ := isTrace_applyDocument {} files document
  obtain ⟨-, hrejected, hlast⟩ := isTrace_applyDocument { mode := .strict } files document
  obtain ⟨error, herror⟩ := hrejected.1 ⟨rejected.message, by simp [strict, hstrict]⟩
  obtain ⟨front, hfront⟩ := hlast error herror
  refine ⟨(htrace _).2 ?_, hstrict, error, front, herror, hfront⟩
  rw [← hlenient, ← hchanges]

end LinePatch
