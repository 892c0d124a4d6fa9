import LinePatch.Command.Execute
import LinePatch.Proofs.Json.RoundTrip
import LinePatch.Proofs.Text.Lines

/-!
# Forms, written and read

The form of every value that goes in or out of the command is read back as that value, in either
layout: of actions and their hunks, of recoveries, strategies and events, of settings and of
changes. The counts inside them have to fit a word, as all counts that are written do. The compact
form of an event stands on one line, so that the lines of a stream of events are read back one by
one.

## Main definitions

* `Recovery.FitsWord`, `Strategy.FitsWord`, `Event.FitsWord`: the counts inside fit a word.

## Main results

* `eventLines_sublist_runLines`: a stream of events among the lines of its run.
* `exists_pieces_eventLines`: a stream of events is read back line by line.
* `readsBack_toJson`: all forms are read back.
-/

namespace LinePatch

open Json (Value ReadsBack readsBack_of_isPlain mapM_map_of_forall)

/-! ### Actions -/

namespace HunkLine

theorem isPlain_toJson (line : HunkLine) : line.toJson.allLeaves Value.isPlain = true := by
  cases line <;> rfl

theorem height_toJson (line : HunkLine) : line.toJson.height = 1 := by
  cases line <;> rfl

theorem ofJson?_toJson (inner : Bool) (line : HunkLine) :
    ofJson? inner line.toJson = some line := by
  cases line <;> rfl

end HunkLine

/-- A text, or nothing, is plain. -/
theorem isPlain_stringOrNull (text : Option String) :
    ((text.map Value.string).getD .null).allLeaves Value.isPlain = true := by
  cases text <;> rfl

theorem height_stringOrNull (text : Option String) :
    ((text.map Value.string).getD .null).height = 0 := by
  cases text <;> rfl

theorem stringOrNull?_stringOrNull (text : Option String) :
    Value.stringOrNull? ((text.map Value.string).getD .null) = some text := by
  cases text <;> rfl

namespace Hunk

theorem isPlain_toJson (hunk : Hunk) : hunk.toJson.allLeaves Value.isPlain = true := by
  have hlines : Value.allItems Value.isPlain (hunk.lines.map HunkLine.toJson) = true := by
    simp [Value.allItems_eq_true_iff, HunkLine.isPlain_toJson]
  simp [toJson, Value.allLeaves, Value.allFields, isPlain_stringOrNull, hlines]

theorem height_toJson (hunk : Hunk) : hunk.toJson.height ≤ 3 := by
  have hlines : Value.heightItems (hunk.lines.map HunkLine.toJson) ≤ 1 := by
    simp [Value.heightItems_le_iff, HunkLine.height_toJson]
  simp only [toJson, Value.height, Value.heightFields, height_stringOrNull]
  omega

theorem ofJson?_toJson (inner : Bool) (hunk : Hunk) :
    ofJson? inner hunk.toJson = some hunk := by
  have hlines : (hunk.lines.map HunkLine.toJson).mapM (HunkLine.ofJson? inner) = some hunk.lines :=
    mapM_map_of_forall fun line _ => HunkLine.ofJson?_toJson inner line
  simp [toJson, ofJson?, Value.record?, Json.optional, Json.required, Json.given,
    stringOrNull?_stringOrNull, Value.list?, hlines]

end Hunk

namespace Action

theorem isPlain_toJson (action : Action) : action.toJson.allLeaves Value.isPlain = true := by
  cases action with
  | update path hunks =>
    have hhunks : Value.allItems Value.isPlain (hunks.map Hunk.toJson) = true := by
      simp [Value.allItems_eq_true_iff, Hunk.isPlain_toJson]
    simp [toJson, Value.ofEnum, Value.allLeaves, Value.allFields, Value.isPlain, hhunks]
  | add path content => rfl
  | delete path => rfl

theorem ofJson?_toJson (action : Action) : ofJson? action.toJson = some action := by
  cases action with
  | update path hunks =>
    have hplain : Value.allItems Value.isPlain (hunks.map Hunk.toJson) = true := by
      simp [Value.allItems_eq_true_iff, Hunk.isPlain_toJson]
    have hheight : Value.heightItems (hunks.map Hunk.toJson) ≤ 3 := by
      simp [Value.heightItems_le_iff, Hunk.height_toJson]
    have hhunks : (hunks.map Hunk.toJson).mapM (Hunk.ofJson? true) = some hunks :=
      mapM_map_of_forall fun hunk _ => Hunk.ofJson?_toJson true hunk
    rw [toJson, ofJson?, Value.tagged?_object ["path", "hunks"] _ _ rfl rfl]
    · simp [Json.required, Json.given, Value.string?, Value.list?, hhunks]
    · simp [Value.allFields, Value.allLeaves, Value.isPlain, hplain]
    · simp only [Value.heightFields, Value.height, Value.maxHeight]
      omega
  | add path content => rfl
  | delete path => rfl

end Action

/-! ### Recoveries, strategies and events -/

namespace Recovery

/-- The number of a line fits a word. -/
def FitsWord : Recovery → Prop
  | contextMismatch hunkLine _ _ | removalSkipped hunkLine _ _ => hunkLine < UInt64.size
  | removalNotFound _ => True

theorem isPlain_toJson {recovery : Recovery} (h : recovery.FitsWord) :
    recovery.toJson.allLeaves Value.isPlain = true := by
  cases recovery with
  | contextMismatch hunkLine expected found | removalSkipped hunkLine expected found =>
    have hcount : hunkLine < UInt64.size := h
    simp [toJson, lineFields, Value.ofEnum, Value.allLeaves, Value.allFields, Value.isPlain,
      isPlain_stringOrNull, hcount]
  | removalNotFound expected => rfl

theorem height_toJson (recovery : Recovery) : recovery.toJson.height = 1 := by
  cases recovery with
  | contextMismatch _ _ found | removalSkipped _ _ found =>
    simp [toJson, lineFields, Value.ofEnum, Value.height, Value.heightFields, height_stringOrNull]
  | removalNotFound expected => rfl

theorem ofJson?_toJson (inner : Bool) (recovery : Recovery) :
    ofJson? inner recovery.toJson = some recovery := by
  cases recovery with
  | contextMismatch _ _ found | removalSkipped _ _ found => cases found <;> rfl
  | removalNotFound expected => rfl

end Recovery

namespace Strategy

/-- The numbers of a replacement fit a word. -/
def FitsWord : Strategy → Prop
  | replace start removed => start < UInt64.size ∧ removed < UInt64.size
  | _ => True

theorem isPlain_toJson {strategy : Strategy} (h : strategy.FitsWord) :
    strategy.toJson.allLeaves Value.isPlain = true := by
  cases strategy with
  | replace start removed =>
    obtain ⟨hstart, hremoved⟩ : start < UInt64.size ∧ removed < UInt64.size := h
    simp [toJson, Value.ofEnum, Value.allLeaves, Value.allFields, Value.isPlain, hstart, hremoved]
  | positional | prepend | unmatched => rfl

theorem height_toJson (strategy : Strategy) : strategy.toJson.height = 1 := by
  cases strategy <;> rfl

theorem ofJson?_toJson (inner : Bool) (strategy : Strategy) :
    ofJson? inner strategy.toJson = some strategy := by
  cases strategy <;> rfl

end Strategy

namespace Event

/-- The counts of an event fit a word. -/
def FitsWord : Event → Prop
  | parsed actions => actions < UInt64.size
  | hunkApplied _ hunkIndex strategy => hunkIndex < UInt64.size ∧ strategy.FitsWord
  | fuzzyRecovery _ hunkIndex recovery => hunkIndex < UInt64.size ∧ recovery.FitsWord
  | _ => True

theorem isPlain_toJson {event : Event} (h : event.FitsWord) :
    event.toJson.allLeaves Value.isPlain = true := by
  cases event with
  | parsed actions =>
    have hcount : actions < UInt64.size := h
    simp [toJson, Value.ofEnum, Value.allLeaves, Value.allFields, Value.isPlain, hcount]
  | hunkApplied path hunkIndex strategy =>
    obtain ⟨hcount, hstrategy⟩ : hunkIndex < UInt64.size ∧ strategy.FitsWord := h
    simp [toJson, hunkFields, Value.ofEnum, Value.allLeaves, Value.allFields, Value.isPlain, hcount,
      Strategy.isPlain_toJson hstrategy]
  | fuzzyRecovery path hunkIndex recovery =>
    obtain ⟨hcount, hrecovery⟩ : hunkIndex < UInt64.size ∧ recovery.FitsWord := h
    simp [toJson, hunkFields, Value.ofEnum, Value.allLeaves, Value.allFields, Value.isPlain, hcount,
      Recovery.isPlain_toJson hrecovery]
  | fileUpdated path | fileAdded path | fileDeleted path | rejected reason => rfl

/-- The fields of an event about a hunk, with the form of what became of the hunk. -/
theorem tagged?_hunkFields (path : String) (hunkIndex : Nat) {tag name : String} {value : Value}
    (hname : name ≠ "kind")
    (hkind : (kinds.map fun kind => (kind.1, kind)).lookup tag =
      some (tag, ["path", "hunk_index", name]))
    (hcount : hunkIndex < UInt64.size) (hvalue : value.allLeaves Value.isPlain = true)
    (hheight : value.height = 1) :
    (Value.object (("kind", .ofEnum tag) :: hunkFields path hunkIndex name value)).tagged? "kind"
        kinds false =
      some (tag, ("kind", .ofEnum tag) :: hunkFields path hunkIndex name value) := by
  refine Value.tagged?_object _ ?_ ?_ ?_ hkind
  · simp [hunkFields, Value.allFields, Value.allLeaves, Value.isPlain, hcount, hvalue]
  · simp [hunkFields, Value.heightFields, Value.height, Value.maxHeight, hheight]
  · simp [hunkFields, Json.given, hname]

theorem ofJson?_toJson {event : Event} (h : event.FitsWord) :
    ofJson? event.toJson = some event := by
  cases event with
  | hunkApplied path hunkIndex strategy =>
    obtain ⟨hcount, hstrategy⟩ : hunkIndex < UInt64.size ∧ strategy.FitsWord := h
    rw [toJson, ofJson?, tagged?_hunkFields path hunkIndex (by decide) rfl hcount
      (Strategy.isPlain_toJson hstrategy) strategy.height_toJson]
    simp [hunkFields, Json.required, Json.given, Value.string?, Value.count?,
      Strategy.ofJson?_toJson]
  | fuzzyRecovery path hunkIndex recovery =>
    obtain ⟨hcount, hrecovery⟩ : hunkIndex < UInt64.size ∧ recovery.FitsWord := h
    rw [toJson, ofJson?, tagged?_hunkFields path hunkIndex (by decide) rfl hcount
      (Recovery.isPlain_toJson hrecovery) recovery.height_toJson]
    simp [hunkFields, Json.required, Json.given, Value.string?, Value.count?,
      Recovery.ofJson?_toJson]
  | parsed actions => rfl
  | fileUpdated path | fileAdded path | fileDeleted path | rejected reason => rfl

/-- The form of an event on one line. -/
theorem lineFeed_not_mem_toText {event : Event} (h : event.FitsWord) :
    '\n' ∉ (event.toJson.toText .compact).toList := by
  rw [Value.toText, String.toList_ofList]
  exact Value.lineFeed_not_mem_write 0 _ (isPlain_toJson h)

end Event

/-! ### Settings and changes -/

namespace Settings

theorem isPlain_toJson (settings : Settings) :
    settings.toJson.allLeaves Value.isPlain = true := by
  obtain ⟨mode, bareLines, requireEndMark⟩ := settings
  cases mode <;> cases bareLines <;> rfl

theorem ofJson?_toJson (settings : Settings) : ofJson? settings.toJson = some settings := by
  obtain ⟨mode, bareLines, requireEndMark⟩ := settings
  cases mode <;> cases bareLines <;> rfl

end Settings

namespace PathMap

variable {α : Type}

/-- In entries in order no path stands twice, so that the last one for it is the first one. -/
theorem lookup_reverse {entries : List (String × α)}
    (h : entries.Pairwise fun a b => a.1 < b.1) (path : String) :
    entries.reverse.lookup path = entries.lookup path := by
  induction entries with
  | nil => rfl
  | cons entry rest ih =>
    obtain ⟨hentry, hrest⟩ := List.pairwise_cons.1 h
    rw [List.reverse_cons, List.lookup_append, ih hrest, lookup_entry, lookup_entry]
    by_cases hpath : path = entry.1
    · have hnone : rest.lookup path = none := by
        refine List.lookup_eq_none_iff.2 fun other hother => ?_
        have hlt : path < other.1 := hpath ▸ hentry other hother
        have hne : path ≠ other.1 := fun heq => String.lt_irrefl path (by rwa [← heq] at hlt)
        simpa using hne
      rw [hnone, Option.none_or]
      simp [hpath]
    · simp [hpath]

/-- A map is the map of its entries. -/
theorem ofList_entries (map : PathMap α) : ofList map.entries = map :=
  ext_get? fun path => (get?_ofList map.entries path).trans (lookup_reverse map.sorted path)

theorem ofJson?_toJson (texts : PathMap String) : ofJson? texts.toJson = some texts := by
  have hentries : texts.toJson.entries? Value.string? = some texts.entries := by
    rw [toJson, Value.entries?]
    exact mapM_map_of_forall fun entry _ => rfl
  rw [ofJson?, hentries, Option.map_some, ofList_entries]

theorem isPlain_toJson (texts : PathMap String) : texts.toJson.allLeaves Value.isPlain = true := by
  rw [toJson, Value.allLeaves, Value.allFields_eq_true_iff]
  exact List.forall_mem_map.2 fun entry _ => rfl

end PathMap

namespace PathSet

theorem ofJson?_toJson (set : PathSet) : ofJson? set.toJson = some set := by
  have hpaths : set.toJson.list? Value.string? = some set.paths := by
    rw [toJson, Value.list?]
    exact mapM_map_of_forall fun path _ => rfl
  have hentries : set.paths.map (fun path => (path, ())) = set.entries := by
    simp [PathMap.paths, Function.comp_def]
  rw [ofJson?, hpaths, Option.map_some, hentries, PathMap.ofList_entries]

theorem isPlain_toJson (set : PathSet) : set.toJson.allLeaves Value.isPlain = true := by
  rw [toJson, Value.allLeaves, Value.allItems_eq_true_iff]
  exact List.forall_mem_map.2 fun path _ => rfl

end PathSet

namespace Changes

theorem isPlain_toJson (changes : Changes) : changes.toJson.allLeaves Value.isPlain = true := by
  simp [toJson, Value.allLeaves, Value.allFields, PathMap.isPlain_toJson, PathSet.isPlain_toJson]

theorem ofJson?_toJson (changes : Changes) : ofJson? changes.toJson = some changes := by
  simp [toJson, ofJson?, Value.record?, Json.required, Json.given, PathMap.ofJson?_toJson,
    PathSet.ofJson?_toJson]

end Changes

/-! ### Streams of events -/

/-- The lines of an output. -/
theorem pieces_outputLines {lines : List String} (h : ∀ line ∈ lines, '\n' ∉ line.toList) :
    Text.pieces (outputLines lines) = lines ++ [""] := by
  induction lines with
  | nil => rfl
  | cons line lines ih =>
    obtain ⟨hline, hlines⟩ := List.forall_mem_cons.1 h
    have hcons : outputLines (line :: lines) = line ++ "\n" ++ outputLines lines := by
      simp [outputLines]
    rw [hcons, Text.pieces_append_lineFeed, ih hlines, Text.pieces_eq_singleton hline]
    rfl

/-- What comes before an event is of no interest at a low verbosity. -/
theorem level_of_mem_forerunners {error? : Option PatchError} {event : Event} {entry : Log.Entry}
    (h : entry ∈ event.forerunners error?) : entry.level = .debug := by
  have hnotFound : ∀ recovery, entry ∈ Log.notFound recovery → entry.level = .debug := by
    intro recovery hentry
    cases recovery with
    | removalNotFound expected => rw [List.mem_singleton.1 hentry]
    | contextMismatch | removalSkipped => exact absurd hentry List.not_mem_nil
  cases event with
  | fuzzyRecovery path hunkIndex recovery => exact hnotFound recovery h
  | rejected reason =>
    rcases error? with _ | error
    · exact absurd h List.not_mem_nil
    · cases error with
      | hunkRejected path hunkIndex recovery => exact hnotFound recovery h
      | _ => exact absurd h List.not_mem_nil
  | _ => exact absurd h List.not_mem_nil

theorem logLines_forerunners {verbosity : Nat} (h : verbosity < 2) (error? : Option PatchError)
    (event : Event) : logLines verbosity (event.forerunners error?) = [] := by
  rw [logLines, List.filter_eq_nil_iff.2, List.map_nil]
  intro entry hentry
  simpa [Log.Entry.isShown, level_of_mem_forerunners hentry] using h

/-- **A stream of events stands among the lines of its run**, and at a low verbosity there are no
others. -/
theorem eventLines_sublist_runLines (verbosity : Nat) (error? : Option PatchError)
    (events : List Event) :
    (eventLines verbosity true events).Sublist (runLines verbosity true error? events) ∧
      (verbosity < 2 →
        runLines verbosity true error? events = eventLines verbosity true events) := by
  induction events with
  | nil => exact ⟨.refl _, fun _ => rfl⟩
  | cons event events ih =>
    obtain ⟨hsublist, hsame⟩ := ih
    have hcons : runLines verbosity true error? (event :: events) =
        logLines verbosity (event.forerunners error?) ++
          event.toJson.toText .compact :: runLines verbosity true error? events := by
      simp [runLines, eventLines]
    rw [hcons, eventLines, if_pos rfl, List.map_cons]
    refine ⟨(List.Sublist.cons_cons _ hsublist).trans (List.sublist_append_right _ _), fun h => ?_⟩
    rw [logLines_forerunners h, hsame h]
    rfl

/-- **A stream of events is read back line by line.** -/
theorem exists_pieces_eventLines (verbosity : Nat) {events : List Event}
    (h : ∀ event ∈ events, event.FitsWord) :
    ∃ lines, Text.pieces (outputLines (eventLines verbosity true events)) = lines ++ [""] ∧
      lines.mapM (fun line => Value.ofText? line >>= Event.ofJson?) = some events ∧
      ∀ error?, lines.Sublist (runLines verbosity true error? events) ∧
        (verbosity < 2 → runLines verbosity true error? events = lines) := by
  refine ⟨eventLines verbosity true events, pieces_outputLines ?_, ?_,
    fun error? => eventLines_sublist_runLines verbosity error? events⟩
  · exact List.forall_mem_map.2 fun event hevent => Event.lineFeed_not_mem_toText (h event hevent)
  · exact mapM_map_of_forall fun event hevent => readsBack_of_isPlain
      (Event.isPlain_toJson (h event hevent)) (Event.ofJson?_toJson (h event hevent)) .compact

/-- **Reading undoes writing**, in either layout, for every form. The compact form of an event
stands on one line, and the stream of the forms of events is read back line by line. The lines of
the stream stand among those of the run, which has no others at a low verbosity. -/
theorem readsBack_toJson :
    (∀ line, ReadsBack HunkLine.toJson (HunkLine.ofJson? false) line) ∧
    (∀ hunk, ReadsBack Hunk.toJson (Hunk.ofJson? false) hunk) ∧
    (∀ action, ReadsBack Action.toJson Action.ofJson? action) ∧
    (∀ actions, ReadsBack (fun actions => .array (actions.map Action.toJson))
      (Value.list? Action.ofJson?) actions) ∧
    (∀ recovery : Recovery, recovery.FitsWord →
      ReadsBack Recovery.toJson (Recovery.ofJson? false) recovery) ∧
    (∀ strategy : Strategy, strategy.FitsWord →
      ReadsBack Strategy.toJson (Strategy.ofJson? false) strategy) ∧
    (∀ event : Event, event.FitsWord → ReadsBack Event.toJson Event.ofJson? event ∧
      '\n' ∉ (event.toJson.toText .compact).toList) ∧
    (∀ settings, ReadsBack Settings.toJson Settings.ofJson? settings) ∧
    (∀ changes, ReadsBack Changes.toJson Changes.ofJson? changes) ∧
    ∀ verbosity (events : List Event), (∀ event ∈ events, event.FitsWord) →
      ∃ lines,
        Text.pieces (outputLines (eventLines verbosity true events)) = lines ++ [""] ∧
        lines.mapM (fun line => Value.ofText? line >>= Event.ofJson?) = some events ∧
        ∀ error?, lines.Sublist (runLines verbosity true error? events) ∧
          (verbosity < 2 → runLines verbosity true error? events = lines) := by
  refine ⟨fun line => ?_, fun hunk => ?_, fun action => ?_, fun actions => ?_,
    fun recovery h => ?_, fun strategy h => ?_, fun event h => ⟨?_, ?_⟩, fun settings => ?_,
    fun changes => ?_, fun verbosity events h => ?_⟩
  · exact readsBack_of_isPlain line.isPlain_toJson (HunkLine.ofJson?_toJson false line)
  · exact readsBack_of_isPlain hunk.isPlain_toJson (Hunk.ofJson?_toJson false hunk)
  · exact readsBack_of_isPlain action.isPlain_toJson action.ofJson?_toJson
  · have hplain := Value.allItems_eq_true_iff.2
      (List.forall_mem_map.2 fun action (_ : action ∈ actions) => Action.isPlain_toJson action)
    exact readsBack_of_isPlain hplain
      (mapM_map_of_forall fun action _ => Action.ofJson?_toJson action)
  · exact readsBack_of_isPlain (Recovery.isPlain_toJson h) (recovery.ofJson?_toJson false)
  · exact readsBack_of_isPlain (Strategy.isPlain_toJson h) (strategy.ofJson?_toJson false)
  · exact readsBack_of_isPlain (Event.isPlain_toJson h) (Event.ofJson?_toJson h)
  · exact Event.lineFeed_not_mem_toText h
  · exact readsBack_of_isPlain settings.isPlain_toJson settings.ofJson?_toJson
  · exact readsBack_of_isPlain changes.isPlain_toJson changes.ofJson?_toJson
  · exact exists_pieces_eventLines verbosity h

/-- A recovery at the greatest line number, about texts with a line break, a quote and a control
character. The lines of its run are those of the stream. -/
theorem readsBack_toJson_greatest_line :
    let recovery : Recovery := .contextMismatch (UInt64.size - 1) "\n\"" none
    let events : List Event := [.parsed 1, .fuzzyRecovery "\x01é" 0 recovery]
    recovery.FitsWord ∧ (∀ event ∈ events, event.FitsWord) ∧
      ReadsBack Recovery.toJson (Recovery.ofJson? false) recovery ∧
      ∃ lines,
        Text.pieces (outputLines (eventLines 0 true events)) = lines ++ [""] ∧
        lines.mapM (fun line => Value.ofText? line >>= Event.ofJson?) = some events ∧
        runLines 0 true none events = lines := by
  intro recovery events
  obtain ⟨-, -, -, -, hrecovery, -, -, -, -, hevents⟩ := readsBack_toJson
  have hword : recovery.FitsWord := (by decide : UInt64.size - 1 < UInt64.size)
  have hwords : ∀ event ∈ events, event.FitsWord :=
    List.forall_mem_cons.2 ⟨(by decide : 1 < UInt64.size),
      List.forall_mem_singleton.2 ⟨(by decide : 0 < UInt64.size), hword⟩⟩
  obtain ⟨lines, hlines, hread, hrun⟩ := hevents 0 events hwords
  exact ⟨hword, hwords, hrecovery recovery hword, lines, hlines, hread,
    (hrun none).2 (by decide)⟩

end LinePatch
