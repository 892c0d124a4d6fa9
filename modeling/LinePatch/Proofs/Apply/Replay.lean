import LinePatch.Proofs.Apply.Stages
import LinePatch.Proofs.Apply.Trace
import LinePatch.Proofs.Hunk.Reach

/-!
# Replaying an update from its reports

What an update makes of a text can be told from the text, the hunks and the reports alone. The
report on a hunk names the way it was applied, and how many recoveries that took; from these it
follows how many lines of the file it used up, and where its own lines went. Nothing has to be
compared for that: whatever other texts stood in place of the lines, the replay would move them in
the same way.

## Main definitions

* `reportOn`: the reports on the hunk with a given index.
* `Hunk.redo`, `replay`: the file after a hunk and after an update, told by the reports.
* `Hunk.mapTexts`: a hunk with other texts.
* `Hunk.IsToldBy`: what the report on a hunk tells about hunk and file.

## Main results

* `Hunk.lines_applyTo_eq_redo`: one hunk, replayed.
* `reportOn_hunkEvents`: the reports on a hunk are those that its application made.
* `replay_mapTexts`: the replay looks at no text.
* `replay_updateText`: an update, replayed.
-/

namespace LinePatch

namespace Event

/-- Whether an event is a report on the hunk with this index. -/
def isOn (index : Nat) : Event → Bool
  | hunkApplied _ hunkIndex _ | fuzzyRecovery _ hunkIndex _ => hunkIndex == index
  | _ => false

/-- The strategy that an event reports. -/
def strategy? : Event → Option Strategy
  | hunkApplied _ _ strategy => some strategy
  | _ => none

/-- The recovery that an event reports. -/
def recovery? : Event → Option Recovery
  | fuzzyRecovery _ _ recovery => some recovery
  | _ => none

end Event

/-- The reports on the hunk with this index. -/
def reportOn (events : List Event) (index : Nat) : List Event :=
  events.filter (Event.isOn index)

namespace Hunk

/-- The file after a hunk that was applied in this way, with so many recoveries. -/
def redo (hunk : Hunk) (strategy : Strategy) (recoveries : Nat) (file : List String) :
    List String :=
  match strategy with
  | .positional => hunk.newTexts ++ file.drop (hunk.oldTexts.length - recoveries)
  | .prepend => hunk.addedTexts ++ file
  | .replace start removed => file.take start ++ hunk.addedTexts ++ file.drop (start + removed)
  | .unmatched => file

end Hunk

/-- The file after hunks, the first of which has the index `index`, told by the events of their
update. There is none if a hunk is not reported exactly once as applied. -/
def replay (events : List Event) (index : Nat) : List Hunk → List String → Option (List String)
  | [], file => some file
  | hunk :: hunks, file =>
    match (reportOn events index).filterMap Event.strategy? with
    | [strategy] =>
      replay events (index + 1) hunks
        (hunk.redo strategy ((reportOn events index).filterMap Event.recovery?).length file)
    | _ => none

/-! ### Other texts -/

/-- A line of a hunk with another text. -/
def HunkLine.mapText (f : String → String) : HunkLine → HunkLine
  | context text => context (f text)
  | add text => add (f text)
  | remove text => remove (f text)

/-- What is picked from lines by their kinds is picked from lines with other texts as well. -/
theorem HunkLine.filterMap_mapText {f : String → String} {pick : HunkLine → Option String}
    (h : ∀ line, pick (mapText f line) = (pick line).map f) (lines : List HunkLine) :
    (lines.map (mapText f)).filterMap pick = (lines.filterMap pick).map f := by
  rw [List.filterMap_map, List.map_filterMap]
  congr 1
  funext line
  exact h line

namespace Hunk

variable (f : String → String) (hunk : Hunk)

/-- A hunk with other texts. -/
def mapTexts : Hunk :=
  { hunk with lines := hunk.lines.map (HunkLine.mapText f) }

theorem newTexts_mapTexts : (hunk.mapTexts f).newTexts = hunk.newTexts.map f :=
  HunkLine.filterMap_mapText (fun line => by cases line <;> rfl) hunk.lines

theorem oldTexts_mapTexts : (hunk.mapTexts f).oldTexts = hunk.oldTexts.map f :=
  HunkLine.filterMap_mapText (fun line => by cases line <;> rfl) hunk.lines

theorem addedTexts_mapTexts : (hunk.mapTexts f).addedTexts = hunk.addedTexts.map f :=
  HunkLine.filterMap_mapText (fun line => by cases line <;> rfl) hunk.lines

theorem redo_mapTexts (strategy : Strategy) (recoveries : Nat) (file : List String) :
    (hunk.mapTexts f).redo strategy recoveries (file.map f) =
      (hunk.redo strategy recoveries file).map f := by
  cases strategy <;>
    simp [redo, newTexts_mapTexts, oldTexts_mapTexts, addedTexts_mapTexts]

end Hunk

/-- **The replay looks at no text.** Other texts in the hunks and in the file are moved in the same
way. -/
theorem replay_mapTexts (f : String → String) (events : List Event) (index : Nat)
    (hunks : List Hunk) (file : List String) :
    replay events index (hunks.map (Hunk.mapTexts f)) (file.map f) =
      (replay events index hunks file).map (List.map f) := by
  induction hunks generalizing index file with
  | nil => rfl
  | cons hunk hunks ih =>
    rw [List.map_cons, replay, replay]
    split
    · rw [Hunk.redo_mapTexts, ih]
    · rfl

/-! ### One hunk -/

/-- **A hunk, replayed.** -/
theorem Hunk.lines_applyTo_eq_redo (hunk : Hunk) (file : List String) :
    (hunk.applyTo file).lines =
      hunk.redo (hunk.applyTo file).strategy (hunk.applyTo file).recoveries.length file := by
  unfold applyTo
  split
  · rw [strategy_walk, lines_walk]
    have hlength := length_recoveries_walk 0 hunk.lines file
    have hreach : hunk.oldTexts.length - (walk 0 hunk.lines file).recoveries.length =
        reach hunk.oldTexts file :=
      Nat.sub_eq_of_eq_add' hlength.symm
    rw [redo, hreach]
    rfl
  · unfold replaceIn
    split
    · rfl
    · split <;> rfl

/-- What the report on a hunk tells about the hunk and the file that it was applied to. -/
structure Hunk.IsToldBy (hunk : Hunk) (file : List String) (strategy : Strategy)
    (recoveries : List Recovery) : Prop where
  positional_iff : strategy = .positional ↔ hunk.hasContext = true
  unmatched_iff :
    strategy = .unmatched ↔ ∃ expected, recoveries = [.removalNotFound expected]
  prepend : strategy = .prepend → recoveries = [] ∧ hunk.firstRemovals = []
  /-- The stretch that gives way begins where the first removed line stands for the first time. -/
  replace : ∀ start removed, strategy = .replace start removed →
    recoveries = [] ∧ removed = hunk.firstRemovals.length ∧ 0 < removed ∧ start < file.length ∧
      file[start]? = hunk.firstRemovals.head? ∧
      ∀ earlier < start, file[earlier]? ≠ hunk.firstRemovals.head?

/-- **What the report on a hunk tells.** -/
theorem Hunk.isToldBy_applyTo (hunk : Hunk) (file : List String) :
    hunk.IsToldBy file (hunk.applyTo file).strategy (hunk.applyTo file).recoveries := by
  unfold applyTo
  split
  · rename_i hcontext
    rw [strategy_walk]
    refine ⟨iff_of_true rfl hcontext, iff_of_false nofun ?_, nofun, nofun⟩
    -- The one recovery that is not about a line of the hunk is not made on a walk.
    rintro ⟨expected, hrecoveries⟩
    obtain ⟨hunkLine, hhunkLine⟩ := hunkLine?_of_mem_recoveries_walk
      (hrecoveries ▸ List.mem_singleton_self (Recovery.removalNotFound expected))
    exact nomatch hhunkLine
  · rename_i hcontext
    unfold replaceIn
    split
    · rename_i hremovals
      exact ⟨iff_of_false nofun hcontext, iff_of_false nofun nofun, fun _ => ⟨rfl, hremovals⟩,
        nofun⟩
    · rename_i expected more hremovals
      split
      · exact ⟨iff_of_false nofun hcontext, iff_of_true rfl ⟨expected, rfl⟩, nofun, nofun⟩
      · rename_i start hstart
        obtain ⟨hlt, hfound, hfirst⟩ := List.idxOf?_eq_some_iff.1 hstart
        refine ⟨iff_of_false nofun hcontext, iff_of_false nofun nofun, nofun, ?_⟩
        rintro _ _ ⟨⟩
        rw [hremovals, List.head?_cons, List.length_cons]
        refine ⟨rfl, rfl, Nat.succ_pos _, hlt, ?_, fun earlier hearlier => ?_⟩
        · rw [List.getElem?_eq_getElem hlt, hfound]
        · rw [List.getElem?_eq_getElem (Nat.lt_trans hearlier hlt)]
          exact fun heq => hfirst earlier hearlier (Option.some.inj heq)

/-! ### The reports on each hunk -/

namespace Application

variable (path : String) (hunkIndex : Nat) (application : Application)

theorem filterMap_strategy?_events :
    (application.events path hunkIndex).filterMap Event.strategy? = [application.strategy] := by
  simp [events, Event.strategy?, Function.comp_def]

theorem filterMap_recovery?_events :
    (application.events path hunkIndex).filterMap Event.recovery? = application.recoveries := by
  simp [events, Event.recovery?, Function.comp_def]

theorem isOn_of_mem_events {event : Event} (h : event ∈ application.events path hunkIndex)
    (index : Nat) : event.isOn index = (hunkIndex == index) := by
  simp only [events, List.mem_append, List.mem_map, List.mem_singleton] at h
  rcases h with ⟨recovery, -, rfl⟩ | rfl <;> rfl

theorem reportOn_events_self :
    reportOn (application.events path hunkIndex) hunkIndex = application.events path hunkIndex :=
  List.filter_eq_self.2 fun event hevent => by
    rw [isOn_of_mem_events path hunkIndex application hevent, beq_self_eq_true]

theorem reportOn_events_of_ne {index : Nat} (h : hunkIndex ≠ index) :
    reportOn (application.events path hunkIndex) index = [] :=
  List.filter_eq_nil_iff.2 fun event hevent => by
    simpa [isOn_of_mem_events path hunkIndex application hevent] using h

end Application

theorem reportOn_append (front back : List Event) (index : Nat) :
    reportOn (front ++ back) index = reportOn front index ++ reportOn back index :=
  List.filter_append front back

/-- Hunks that are numbered from a later index on are not reported under this one. -/
theorem reportOn_hunkEvents_of_lt (path : String) {index hunkIndex : Nat} (h : index < hunkIndex)
    (applications : List Application) :
    reportOn (hunkEvents path hunkIndex applications) index = [] := by
  induction applications generalizing hunkIndex with
  | nil => rfl
  | cons application applications ih =>
    rw [hunkEvents_cons, reportOn_append, ih (Nat.lt_succ_of_lt h), List.append_nil,
      application.reportOn_events_of_ne path hunkIndex (Nat.ne_of_gt h)]

/-- **The reports on a hunk are those that its application made.** -/
theorem reportOn_hunkEvents (path : String) (hunkIndex : Nat) {applications : List Application}
    {index : Nat} {application : Application} (h : applications[index]? = some application) :
    reportOn (hunkEvents path hunkIndex applications) (hunkIndex + index) =
      application.events path (hunkIndex + index) := by
  induction applications generalizing hunkIndex index with
  | nil => exact nomatch h
  | cons first applications ih =>
    rw [hunkEvents_cons, reportOn_append]
    cases index with
    | zero =>
      obtain rfl := Option.some.inj h
      rw [Nat.add_zero, first.reportOn_events_self,
        reportOn_hunkEvents_of_lt path (Nat.lt_succ_self hunkIndex), List.append_nil]
    | succ index =>
      rw [first.reportOn_events_of_ne path hunkIndex (by omega), List.nil_append,
        Nat.add_comm index 1, ← Nat.add_assoc]
      exact ih (hunkIndex + 1) h

/-! ### The whole update -/

/-- **Hunks, replayed.** From the reports on all of them the replay comes to their last stage. -/
theorem replay_eq_stage {events : List Event} {path : String} {hunkIndex : Nat} {hunks : List Hunk}
    {file : List String}
    (h : ∀ (index : Nat) (application : Application),
      (Hunk.applications hunks file)[index]? = some application →
        reportOn events (hunkIndex + index) = application.events path (hunkIndex + index)) :
    replay events hunkIndex hunks file = some (Hunk.stage hunks file hunks.length) := by
  induction hunks generalizing hunkIndex file with
  | nil => rfl
  | cons hunk hunks ih =>
    have hfirst : reportOn events hunkIndex = (hunk.applyTo file).events path hunkIndex :=
      h 0 (hunk.applyTo file) rfl
    simp only [replay, hfirst, Application.filterMap_strategy?_events,
      Application.filterMap_recovery?_events, ← Hunk.lines_applyTo_eq_redo]
    refine ih fun index application happlication => ?_
    have hlater := h (index + 1) application happlication
    rwa [Nat.add_comm index 1, ← Nat.add_assoc] at hlater

/-- The run of an update that succeeds. -/
theorem updateText_of_result_eq_ok {mode : Mode} {path text updated : String} {hunks : List Hunk}
    (h : (updateText mode path text hunks).result = .ok updated) :
    updated = Hunk.applyAll hunks text ∧ (updateText mode path text hunks).events =
      hunkEvents path 0 (Hunk.applications hunks (Text.lines text)) := by
  constructor
  · rw [result_updateText] at h
    cases hrejection : Hunk.rejection? mode path text hunks with
    | none =>
      rw [hrejection] at h
      exact (Except.ok.inj h).symm
    | some error =>
      rw [hrejection] at h
      cases h
  · rcases updateLines_trace mode path 0 hunks (Text.lines text) with
      ⟨lines, hrun⟩ | ⟨-, above, application, below, recovery, -, -, -, hrun⟩
    · rw [updateText, hrun, Run.map_ok]
    · rw [updateText, hrun, Run.map_error] at h
      cases h

/-- **An update, replayed from its reports.** The text that an update comes to is the one that the
replay makes of the reports on it, and the replay does not look at texts. Each hunk is reported once
as applied, and what is reported about it tells which way it went. -/
theorem replay_updateText {mode : Mode} {path text updated : String} {hunks : List Hunk}
    (h : (updateText mode path text hunks).result = .ok updated) :
    let events := (updateText mode path text hunks).events
    (replay events 0 hunks (Text.lines text)).map Text.unlines = some updated ∧
    (∀ f : String → String,
      replay events 0 (hunks.map (Hunk.mapTexts f)) ((Text.lines text).map f) =
        (replay events 0 hunks (Text.lines text)).map (List.map f)) ∧
    ∀ (index : Nat) (hunk : Hunk), hunks[index]? = some hunk → ∃ strategy,
      (reportOn events index).filterMap Event.strategy? = [strategy] ∧
      hunk.IsToldBy (Hunk.stage hunks (Text.lines text) index) strategy
        ((reportOn events index).filterMap Event.recovery?) := by
  intro events
  obtain ⟨rfl, hevents⟩ := updateText_of_result_eq_ok h
  have hreport (index : Nat) (application : Application)
      (happlication : (Hunk.applications hunks (Text.lines text))[index]? = some application) :
      reportOn events (0 + index) = application.events path (0 + index) := by
    change reportOn (updateText mode path text hunks).events (0 + index) = _
    rw [hevents]
    exact reportOn_hunkEvents path 0 happlication
  refine ⟨?_, fun f => replay_mapTexts f events 0 hunks (Text.lines text),
    fun index hunk hhunk => ?_⟩
  · rw [replay_eq_stage hreport, Option.map_some, Hunk.unlines_stage_length]
  · have hhunkReport := hreport index (hunk.applyTo (Hunk.stage hunks (Text.lines text) index))
      (by rw [Hunk.getElem?_applications, hhunk, Option.map_some])
    rw [Nat.zero_add] at hhunkReport
    rw [hhunkReport, Application.filterMap_strategy?_events, Application.filterMap_recovery?_events]
    exact ⟨_, rfl, hunk.isToldBy_applyTo _⟩

/-- Four hunks that each go another way: the first one skips a removal, the third one replaces more
lines than the file still has, and the last one finds no place. -/
theorem replay_updateText_four_ways :
    let hunks : List Hunk := [⟨none, [.context "a", .remove "q", .add "c"]⟩, ⟨none, [.add "z"]⟩,
      ⟨none, [.remove "b", .remove "y", .add "w"]⟩, ⟨none, [.remove "m"]⟩]
    let run := updateText .lenient "f" "a\nb" hunks
    run.result = .ok "z\na\nc\nw" ∧
      run.events = [.fuzzyRecovery "f" 0 (.removalSkipped 1 "q" (some "b")),
        .hunkApplied "f" 0 .positional, .hunkApplied "f" 1 .prepend,
        .hunkApplied "f" 2 (.replace 3 2), .fuzzyRecovery "f" 3 (.removalNotFound "m"),
        .hunkApplied "f" 3 .unmatched] ∧
      (replay run.events 0 hunks (Text.lines "a\nb")).map Text.unlines = some "z\na\nc\nw" := by
  intro hunks run
  have hresult : run.result = .ok "z\na\nc\nw" := by
    rw [Run.result_eq_ok_iff]
    decide +kernel
  exact ⟨hresult, by decide +kernel, (replay_updateText hresult).1⟩

end LinePatch
