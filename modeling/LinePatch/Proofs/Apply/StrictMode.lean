import LinePatch.Proofs.Update

/-!
# Strict mode as a cut

A patch that is applied in strict mode goes the way that it goes in lenient mode, up to the first
recovery. There the strict run ends, with an error that names the hunk and the recovery, while the
lenient one reports the recovery and goes on. Where the lenient run has no recovery to report the
two are one run, whether it ends well or not.

Ending a run at its first recovery commutes with doing one thing after another. So it is enough to
see what becomes of a single hunk, and the rest follows along the hunks of an update, the actions
of a patch, and the reading of the document.

## Main definitions

* `Event.strictError?`: the error that an event amounts to in strict mode.
* `Run.cut`: a run that ends at its first recovery.

## Main results

* `Run.cut_bind`: cutting one run after another.
* `updateLines_strict`, `applyActions_strict`: updates and patches in strict mode.
* `applyDocument_strict_eq_cut`: documents in strict mode.
-/

namespace LinePatch

/-- The error that an event amounts to in strict mode: a recovery refuses its hunk. -/
def Event.strictError? : Event → Option PatchError
  | fuzzyRecovery path hunkIndex recovery => some (.hunkRejected path hunkIndex recovery)
  | _ => none

namespace Run

variable {α β : Type} (report : PatchError → List Event)

/-- The run that ends at its first recovery, with a last report on the error that this is. Without
a recovery it is the whole run. -/
def cut (run : Run PatchError α) : Run PatchError α :=
  match run.events.findSome? Event.strictError? with
  | none => run
  | some error => ⟨run.events.takeWhile (·.strictError?.isNone) ++ report error, .error error⟩

variable {report} {run : Run PatchError α}

theorem cut_of_none (h : run.events.findSome? Event.strictError? = none) :
    run.cut report = run := by
  simp only [cut, h]

/-- Events without a recovery are kept to the last one. -/
theorem takeWhile_append_of_findSome?_eq_none {events : List Event}
    (h : events.findSome? Event.strictError? = none) (later : List Event) :
    (events ++ later).takeWhile (·.strictError?.isNone) =
      events ++ later.takeWhile (·.strictError?.isNone) := by
  refine List.takeWhile_append_of_pos fun event hevent => ?_
  rw [List.findSome?_eq_none_iff.1 h event hevent]
  rfl

/-- Events with a recovery are cut there, whatever follows them. -/
theorem takeWhile_append_of_findSome?_eq_some {events : List Event} {error : PatchError}
    (h : events.findSome? Event.strictError? = some error) (later : List Event) :
    (events ++ later).takeWhile (·.strictError?.isNone) =
      events.takeWhile (·.strictError?.isNone) := by
  obtain ⟨before, event, after, rfl, hevent, hbefore⟩ := List.findSome?_eq_some_iff.1 h
  have hnone : before.findSome? Event.strictError? = none := List.findSome?_eq_none_iff.2 hbefore
  rw [List.append_assoc, takeWhile_append_of_findSome?_eq_none hnone,
    takeWhile_append_of_findSome?_eq_none hnone, List.cons_append,
    List.takeWhile_cons_of_neg (by simp [hevent]), List.takeWhile_cons_of_neg (by simp [hevent])]

/-- **Cutting commutes with doing one thing after another.** -/
theorem cut_bind (run : Run PatchError α) (next : α → Run PatchError β) :
    (run >>= next).cut report = run.cut report >>= fun value => (next value).cut report := by
  rcases run with ⟨events, error | value⟩
  · unfold cut
    cases h : events.findSome? Event.strictError? <;> simp only [bind_error, h]
  · unfold cut
    rw [bind_ok]
    cases h : events.findSome? Event.strictError? with
    | some error =>
      simp only [List.findSome?_append, h, Option.some_or, bind_error,
        takeWhile_append_of_findSome?_eq_some h]
    | none =>
      simp only [List.findSome?_append, h, Option.none_or, bind_ok]
      cases (next value).events.findSome? Event.strictError? with
      | none => rfl
      | some error => simp only [takeWhile_append_of_findSome?_eq_none h, List.append_assoc]

theorem cut_map (f : α → β) (run : Run PatchError α) :
    (f <$> run).cut report = f <$> run.cut report := by
  unfold cut
  rcases run with ⟨events, error | value⟩
  · cases h : events.findSome? Event.strictError? <;> simp only [map_error, h]
  · cases h : events.findSome? Event.strictError? <;> simp only [map_ok, map_error, h]

/-- A last report without recoveries is made of a run that is not cut, and a run that is cut has
the report on its error instead. -/
theorem cut_andReport {onSuccess : α → List Event}
    (hsuccess : ∀ value, (onSuccess value).findSome? Event.strictError? = none)
    (hreport : ∀ error, (report error).findSome? Event.strictError? = none)
    (run : Run PatchError α) :
    (run.andReport onSuccess report).cut report =
      (run.cut fun _ => []).andReport onSuccess report := by
  unfold cut
  rcases run with ⟨events, error | value⟩
  · rw [andReport_error]
    cases h : events.findSome? Event.strictError? with
    | none => simp only [List.findSome?_append, h, hreport, Option.none_or, andReport_error]
    | some error =>
      simp only [List.findSome?_append, h, Option.some_or, andReport_error, List.append_nil,
        takeWhile_append_of_findSome?_eq_some h]
  · rw [andReport_ok]
    cases h : events.findSome? Event.strictError? with
    | none => simp only [List.findSome?_append, h, hsuccess, Option.none_or, andReport_ok]
    | some error =>
      simp only [List.findSome?_append, h, Option.some_or, andReport_error, List.append_nil,
        takeWhile_append_of_findSome?_eq_some h]

/-- A run that is cut reports no recovery. -/
theorem strictError?_of_mem_cut
    (hreport : ∀ error, (report error).findSome? Event.strictError? = none) {event : Event}
    (h : event ∈ (run.cut report).events) : event.strictError? = none := by
  unfold cut at h
  split at h
  · rename_i hnone
    exact List.findSome?_eq_none_iff.1 hnone event h
  · rename_i error hsome
    rcases List.mem_append.1 h with h | h
    · exact Option.isNone_iff_eq_none.1 (List.all_eq_true.1 List.all_takeWhile event h)
    · exact List.findSome?_eq_none_iff.1 (hreport error) event h

/-- A run that is cut and ends well was not cut. -/
theorem result_of_result_cut_eq_ok {value : α} (h : (run.cut report).result = .ok value) :
    run.result = .ok value := by
  unfold cut at h
  split at h
  · exact h
  · exact nomatch h

/-- A run that fails still fails when it is cut. -/
theorem exists_result_cut_eq_error {error : PatchError} (h : run.result = .error error) :
    ∃ other, (run.cut report).result = .error other := by
  unfold cut
  split
  · exact ⟨error, h⟩
  · exact ⟨_, rfl⟩

end Run

/-! ### Hunks, actions and documents -/

/-- The hunks of an update in strict mode. -/
theorem updateLines_strict (path : String) (hunkIndex : Nat) (hunks : List Hunk)
    (file : List String) :
    updateLines .strict path hunkIndex hunks file =
      (updateLines .lenient path hunkIndex hunks file).cut fun _ => [] := by
  induction hunks generalizing hunkIndex file with
  | nil => rfl
  | cons hunk hunks ih =>
    cases hrecoveries : (hunk.applyTo file).recoveries with
    | nil =>
      have hclean := Application.isClean_iff.2 hrecoveries
      rw [updateLines_cons_of_isClean hclean, updateLines_cons_of_isClean hclean, Run.cut_bind]
      simp only [ih]
      rfl
    | cons recovery more =>
      -- The first event of the lenient run is the recovery that refuses the hunk.
      rw [updateLines_cons_of_strict hrecoveries]
      simp only [updateLines, Run.emit, Run.cut, Application.events, hrecoveries]
      rfl

theorem updateText_strict (path text : String) (hunks : List Hunk) :
    updateText .strict path text hunks =
      (updateText .lenient path text hunks).cut fun _ => [] := by
  rw [updateText, updateText, updateLines_strict, Run.cut_map]

/-- An action in strict mode. Only an update looks at the mode. -/
theorem Action.change_strict (files : Files) (action : Action) :
    action.change .strict files = (action.change .lenient files).cut fun _ => [] := by
  cases action with
  | update path hunks =>
    cases hfile : files path with
    | none =>
      simp only [Action.change, hfile]
      rfl
    | some text => simp only [Action.change, hfile, updateText_strict, Run.cut_map]
  | add path content => rfl
  | delete path => rfl

theorem changeList_strict (files : Files) (actions : List Action) :
    changeList .strict files actions =
      (changeList .lenient files actions).cut fun _ => [] := by
  induction actions with
  | nil => rfl
  | cons action actions ih =>
    simp only [changeList, Action.change_strict, ih, Run.cut_bind]
    rfl

theorem findSome?_rejection (error : PatchError) :
    (rejection error).findSome? Event.strictError? = none :=
  rfl

theorem findSome?_map_event (changes : List Change) :
    (changes.map Change.event).findSome? Event.strictError? = none := by
  rw [List.findSome?_eq_none_iff, List.forall_mem_map]
  intro change _
  cases change <;> rfl

/-- **The actions of a patch in strict mode.** -/
theorem applyActions_strict (files : Files) (actions : List Action) :
    applyActions .strict files actions =
      (applyActions .lenient files actions).cut rejection := by
  rw [applyActions, applyActions, Run.cut_map,
    Run.cut_andReport findSome?_map_event findSome?_rejection, changeList_strict]

/-- Reading a document reports no recovery. -/
theorem cut_readActions (settings : Settings) (document : String) :
    (readActions settings document).cut rejection = readActions settings document := by
  refine Run.cut_of_none ?_
  unfold readActions
  cases Document.actions settings document <;> rfl

/-- **A document in strict mode.** The strict run is the lenient one that ends at its first
recovery. It ends with the error that the hunk of this recovery is rejected, and reports that
last. So it never reports a recovery, what it makes of the files is what the lenient run makes of
them, and it fails wherever the lenient one does. -/
theorem applyDocument_strict_eq_cut (settings : Settings) (files : Files) (document : String) :
    let lenient := applyDocument { settings with mode := .lenient } files document
    let strict := applyDocument { settings with mode := .strict } files document
    strict = (match lenient.events.findSome? Event.strictError? with
      | none => lenient
      | some error =>
        ⟨lenient.events.takeWhile (·.strictError?.isNone) ++ [.rejected error.message],
          .error error⟩) ∧
    (∀ event ∈ strict.events, event.strictError? = none) ∧
    (∀ changes, strict.result = .ok changes → lenient.result = .ok changes) ∧
    ∀ error, lenient.result = .error error → ∃ other, strict.result = .error other := by
  intro lenient strict
  have hcut : strict = lenient.cut rejection := by
    have hread : readActions { settings with mode := .strict } document =
        readActions { settings with mode := .lenient } document := rfl
    simp only [strict, lenient, applyDocument, hread, applyActions_strict, Run.cut_bind,
      cut_readActions]
  refine ⟨hcut, ?_, ?_, ?_⟩
  · rw [hcut]
    exact fun event hevent => Run.strictError?_of_mem_cut findSome?_rejection hevent
  · rw [hcut]
    exact fun changes h => Run.result_of_result_cut_eq_ok h
  · rw [hcut]
    exact fun error h => Run.exists_result_cut_eq_error h

/-- The second hunk of an update disagrees with the file, and a later action fails for another
reason: the strict run ends at the hunk, after the first one has been reported. Where all hunks
agree both runs come to the same. -/
theorem applyDocument_strict_eq_cut_second_hunk :
    let files : Files := fun path => if path = "f" then some "a\nb" else none
    let agreeing := Text.unlines ["*** Begin Patch", "*** Update File: f", " a", "-b",
      "*** End Patch"]
    let disagreeing := Text.unlines ["*** Begin Patch", "*** Update File: f", " a", "-b", "@@",
      "-c", "*** Delete File: g", "*** End Patch"]
    let changes : Changes := { updated := PathMap.empty.insert "f" "a" }
    let rejected : PatchError := .hunkRejected "f" 1 (.removalNotFound "c")
    ((applyDocument { mode := .strict } files agreeing).result = .ok changes ∧
      (applyDocument { mode := .lenient } files agreeing).result = .ok changes) ∧
    ((∃ error, (applyDocument { mode := .lenient } files disagreeing).result = .error error) ∧
      (applyDocument { mode := .strict } files disagreeing).events =
        [.parsed 2, .hunkApplied "f" 0 .positional, .rejected rejected.message] ∧
      ∃ error, (applyDocument { mode := .strict } files disagreeing).result = .error error) := by
  intro files agreeing disagreeing changes rejected
  have hstrict : (applyDocument { mode := .strict } files agreeing).result = .ok changes := by
    rw [Run.result_eq_ok_iff]
    decide +kernel
  have hlenient :
      ∃ error, (applyDocument { mode := .lenient } files disagreeing).result = .error error := by
    rw [Run.exists_result_eq_error_iff]
    decide +kernel
  have hrecovery : (applyDocument { mode := .lenient } files disagreeing).events =
      [.parsed 2, .hunkApplied "f" 0 .positional,
        .fuzzyRecovery "f" 1 (.removalNotFound "c"), .hunkApplied "f" 1 .unmatched,
        .rejected (PatchError.missingFile "g").message] := by
    decide +kernel
  obtain ⟨-, -, hagree, -⟩ := applyDocument_strict_eq_cut {} files agreeing
  obtain ⟨hcut, -, -, hfail⟩ := applyDocument_strict_eq_cut {} files disagreeing
  obtain ⟨error, herror⟩ := hlenient
  refine ⟨⟨hstrict, hagree changes hstrict⟩, ⟨error, herror⟩, ?_, hfail error herror⟩
  rw [hrecovery] at hcut
  exact congrArg Run.events hcut

end LinePatch
