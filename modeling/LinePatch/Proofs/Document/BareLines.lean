import LinePatch.Proofs.Document.Errors

/-!
# Keeping bare lines

Text without a mark in a section that updates a file is left out, or it is taken for a line that
the file keeps. The two readings of a document stand in a fixed relation. What one of them makes of
a section, the other makes of it with more context, and with the hunks that have nothing else. So a
document that can be read without its bare lines can be read with them. The one thing that bare
lines can mend is an update that has no hunk without them, and then the reading ends further down or
not at all.

## Main definitions

* `Document.ThinsLines`, `Document.ThinsHunk`, `Document.ThinsHunks`, `Document.ThinsAction`: what
  is left where bare context is taken away.

## Main results

* `Document.thinsHunks_groups`: the hunks of a section without its bare lines and with them.
* `Document.OffenceAt.of_context`: what is wrong with the bare lines is wrong without them.
* `Document.actions_bareLines`: the two readings of a document.
-/

namespace LinePatch.Document

/-! ### Taking bare context away -/

/-- The first lines are the second ones without some of the context that is bare text. -/
inductive ThinsLines : List HunkLine → List HunkLine → Prop
  | nil : ThinsLines [] []
  | keep (line : HunkLine) {lines fuller : List HunkLine} (rest : ThinsLines lines fuller) :
      ThinsLines (line :: lines) (line :: fuller)
  | drop {text : String} {lines fuller : List HunkLine} (bare : isBare text = true)
      (rest : ThinsLines lines fuller) : ThinsLines lines (.context text :: fuller)

/-- The first hunk is the second one without some of its bare context. -/
structure ThinsHunk (hunk fuller : Hunk) : Prop where
  label : hunk.label = fuller.label
  lines : ThinsLines hunk.lines fuller.lines

/-- The first hunks are what has lines once the second ones are without some of their bare
context. -/
def ThinsHunks (hunks fuller : List Hunk) : Prop :=
  ∃ thinned, List.Forall₂ ThinsHunk thinned fuller ∧
    hunks = thinned.filter fun hunk => !hunk.lines.isEmpty

/-- The first action is the second one, which may be without some bare context. -/
inductive ThinsAction : Action → Action → Prop
  | update (path : String) {hunks fuller : List Hunk} (rest : ThinsHunks hunks fuller) :
      ThinsAction (.update path hunks) (.update path fuller)
  | add (path content : String) : ThinsAction (.add path content) (.add path content)
  | delete (path : String) : ThinsAction (.delete path) (.delete path)

theorem ThinsHunks.eq_nil {hunks : List Hunk} (h : ThinsHunks hunks []) : hunks = [] := by
  obtain ⟨thinned, hthinned, rfl⟩ := h
  rw [List.forall₂_nil_right_iff.1 hthinned]
  rfl

/-! ### The hunks of a section -/

section Hunks

variable {line : String} {lines : List String}

theorem hunkLineOf?_of_isBare (h : isBare line = true) :
    hunkLineOf? .skip line = none ∧ hunkLineOf? .context line = some (.context line) := by
  simp_all [isBare, opensHunk, hunkLineOf?, Text.beginsWith]

/-- Only what a bare line brings to its hunk depends on the setting. -/
theorem hunkLineOf?_eq_of_not_isBare (hplain : Text.beginsWith sectionMark line = false)
    (h : isBare line = false) (bareLines : BareLines) :
    hunkLineOf? bareLines line = hunkLineOf? .skip line := by
  have hbody : (Line.ofText line).isBody = true := by rw [Line.isBody_ofText, hplain]; rfl
  have hkinds : (Line.ofText line).hunkLines bareLines = (Line.ofText line).hunkLines .skip := by
    rw [isBare_eq] at h
    cases hkind : Line.ofText line with
    | bare text => exact absurd h (by simp [hkind, Line.isBare])
    | hunk rest | blank | context text | added text | removed text => rfl
    | endMark | update path | add path | delete path | stars rest =>
      exact absurd hbody (by simp [hkind, Line.isBody])
  rw [← hunkLineOf?_eq, ← hunkLineOf?_eq] at hkinds
  refine Option.ext fun brought => ?_
  have hmem := congrArg (brought ∈ ·) hkinds
  simpa only [Option.mem_toList, eq_iff_iff, Option.mem_def] using hmem

theorem thinsLines_filterMap (hplain : ∀ line ∈ lines, Text.beginsWith sectionMark line = false) :
    ThinsLines (lines.filterMap (hunkLineOf? .skip)) (lines.filterMap (hunkLineOf? .context)) := by
  induction lines with
  | nil => exact .nil
  | cons line lines ih =>
    obtain ⟨hline, hlines⟩ := List.forall_mem_cons.1 hplain
    cases hbare : isBare line with
    | true =>
      obtain ⟨hskip, hcontext⟩ := hunkLineOf?_of_isBare hbare
      rw [List.filterMap_cons_none hskip, List.filterMap_cons_some hcontext]
      exact .drop hbare (ih hlines)
    | false =>
      have hsame := hunkLineOf?_eq_of_not_isBare hline hbare .context
      cases hskip : hunkLineOf? .skip line with
      | none =>
        rw [List.filterMap_cons_none hskip, List.filterMap_cons_none (hsame.trans hskip)]
        exact ih hlines
      | some brought =>
        rw [List.filterMap_cons_some hskip, List.filterMap_cons_some (hsame.trans hskip)]
        exact .keep brought (ih hlines)

theorem ThinsLines.eq_nil {lines : List HunkLine} (h : ThinsLines lines []) : lines = [] := by
  cases h
  rfl

/-- The hunks of pieces without their bare lines and with them. A piece of bare lines is a hunk
only in the second of the two readings. -/
theorem thinsHunks_hunksOf {parts : List (List String)}
    (hplain : ∀ piece ∈ parts, ∀ line ∈ piece, Text.beginsWith sectionMark line = false) :
    ThinsHunks (hunksOf .skip parts) (hunksOf .context parts) := by
  have hthins (piece : List String) (hpiece : piece ∈ parts) :
      ThinsHunk (hunkOf .skip piece) (hunkOf .context piece) :=
    ⟨rfl, thinsLines_filterMap (hplain piece hpiece)⟩
  have hlines (piece : List String) (hpiece : piece ∈ parts)
      (hskip : (hunkOf .skip piece).lines ≠ []) : (hunkOf .context piece).lines ≠ [] := by
    intro hcontext
    have hrest := (hthins piece hpiece).lines
    rw [hcontext] at hrest
    exact hskip hrest.eq_nil
  refine ⟨(parts.filter fun piece => !(hunkOf .context piece).lines.isEmpty).map (hunkOf .skip),
    ?_, ?_⟩
  · simp only [hunksOf, List.filter_map, Function.comp_def, List.forall₂_map_left_iff,
      List.forall₂_map_right_iff, List.forall₂_same]
    exact fun piece hpiece => hthins piece (List.mem_of_mem_filter hpiece)
  · rw [hunksOf, List.filter_map, List.filter_map, List.filter_filter]
    refine congrArg (List.map _) (List.filter_congr fun piece hpiece => ?_)
    have hboth := hlines piece hpiece
    cases hskip : (hunkOf .skip piece).lines <;> simp_all

/-- **The hunks of a section without its bare lines and with them.** -/
theorem thinsHunks_groups (hplain : ∀ line ∈ lines, Text.beginsWith sectionMark line = false) :
    ThinsHunks (groups .skip lines) (groups .context lines) :=
  thinsHunks_hunksOf fun _ hpiece line hline =>
    hplain line ((List.dropWhile_suffix _).subset (mem_of_mem_pieces hpiece hline))

/-- A section without bare lines has the same hunks under every setting. -/
theorem groups_eq_of_not_isBare
    (hplain : ∀ line ∈ lines, Text.beginsWith sectionMark line = false)
    (hbare : ∀ line ∈ lines, isBare line = false) (bareLines : BareLines) :
    groups bareLines lines = groups .skip lines := by
  rw [groups, groups, hunksOf, hunksOf]
  refine congrArg (List.filter _) (List.map_congr_left fun piece hpiece => ?_)
  rw [hunkOf, hunkOf]
  refine congrArg (Hunk.mk _) (List.filterMap_congr fun line hline => ?_)
  have hmem := (List.dropWhile_suffix _).subset (mem_of_mem_pieces hpiece hline)
  exact hunkLineOf?_eq_of_not_isBare (hplain line hmem) (hbare line hmem) bareLines

end Hunks

/-! ### Documents that are read -/

section Meaning

variable {part : Section} {action : Action} {parts : List Section} {list : List Action}

/-- A section that means an action without its bare lines means one with them. -/
theorem Section.Means.exists_context (h : part.Means .skip action)
    (hplain : ∀ line ∈ part.rest, Text.beginsWith sectionMark line = false) :
    ∃ fuller, part.Means .context fuller ∧ ThinsAction action fuller ∧
      ((Text.beginsWith updateMark part.head = true → ∀ line ∈ part.rest, isBare line = false) →
        action = fuller) := by
  cases h with
  | @update path rest some =>
    have hthins := thinsHunks_groups hplain
    have hnonempty : groups .context rest ≠ [] := by
      intro hnone
      rw [hnone] at hthins
      exact some hthins.eq_nil
    refine ⟨_, .update hnonempty, .update path hthins, fun hbare => ?_⟩
    have hhead : Text.beginsWith updateMark (updateMark ++ path) = true :=
      Text.beginsWith_iff.2 ⟨path, rfl⟩
    rw [groups_eq_of_not_isBare hplain (hbare hhead) .context]
  | add content => exact ⟨_, .add content, .add _ _, fun _ => rfl⟩
  | delete idle => exact ⟨_, .delete idle, .delete _, fun _ => rfl⟩

/-- **Sections that mean actions without their bare lines mean more with them.** -/
theorem exists_forall₂_means_context (h : List.Forall₂ (Section.Means .skip) parts list)
    (hplain : ∀ part ∈ parts, ∀ line ∈ part.rest, Text.beginsWith sectionMark line = false) :
    ∃ fuller, List.Forall₂ (Section.Means .context) parts fuller ∧
      List.Forall₂ ThinsAction list fuller ∧
      ((∀ part ∈ parts, Text.beginsWith updateMark part.head = true →
        ∀ line ∈ part.rest, isBare line = false) → list = fuller) := by
  induction h with
  | nil => exact ⟨[], .nil, .nil, fun _ => rfl⟩
  | @cons part action parts list hpart _ ih =>
    obtain ⟨hfirst, hlater⟩ := List.forall_mem_cons.1 hplain
    obtain ⟨more, hmore, hthins, hsame⟩ := hpart.exists_context hfirst
    obtain ⟨fuller, hfuller, hthinsLater, hsameLater⟩ := ih hlater
    refine ⟨more :: fuller, .cons hmore hfuller, .cons hthins hthinsLater, fun hbare => ?_⟩
    obtain ⟨hbareFirst, hbareLater⟩ := List.forall_mem_cons.1 hbare
    rw [hsame hbareFirst, hsameLater hbareLater]

end Meaning

/-! ### Documents that are not read -/

section Errors

variable {settings : Settings} {lines : List String} {index : Nat} {offence : Offence}
  {error : SyntaxError}

/-- What is wrong with lines, the bare ones of which are kept, is wrong without these. -/
theorem OffenceAt.of_context (h : OffenceAt .context lines index offence) :
    OffenceAt .skip lines index offence := by
  obtain ⟨line, hline, hoffends⟩ := h
  refine ⟨line, hline, ?_⟩
  cases hoffends with
  | stray plain outside idle => exact .stray plain outside idle
  | head stars update add delete => exact .head stars update add delete
  | content plain inside content => exact .content plain inside content
  | update head none =>
    refine .update head ?_
    have hthins := thinsHunks_groups fun line
        (hline : line ∈ sectionLines lines (index + 1)) => by
      simpa using List.mem_takeWhile_imp hline
    rw [none] at hthins
    exact hthins.eq_nil

/-- **Without its bare lines a document has an error that it has with them, or one further up.** -/
theorem HasError.exists_skip
    (h : HasError { settings with bareLines := .context } lines error) :
    ∃ earlier, HasError { settings with bareLines := .skip } lines earlier ∧
      earlier.lineNumber ≤ error.lineNumber := by
  cases h with
  | noBeginMark unopened => exact ⟨_, .noBeginMark unopened, Nat.le_refl _⟩
  | offence opened first =>
    obtain ⟨earlier, hle, other, hfirst⟩ := first.offends.of_context.exists_isFirstOffence
    exact ⟨_, .offence opened hfirst, Nat.add_le_add_right hle 2⟩
  | noEndMark opened none required missing =>
    by_cases hnone : ∀ index offence, ¬ OffenceAt .skip (scanned lines) index offence
    · exact ⟨_, .noEndMark opened hnone required missing, Nat.le_refl _⟩
    · obtain ⟨index, offence, hoffends⟩ : ∃ index offence,
          OffenceAt .skip (scanned lines) index offence := by
        simpa using hnone
      obtain ⟨earlier, hle, other, hfirst⟩ := hoffends.exists_isFirstOffence
      refine ⟨_, .offence opened hfirst, ?_⟩
      obtain ⟨line, hline, -⟩ := hfirst.offends
      have hlt := (List.getElem?_eq_some_iff.1 hline).1
      rw [scanned, List.length_drop, List.length_take] at hlt
      show earlier + 2 ≤ lines.length
      omega

end Errors

/-! ### The two readings of a document -/

/-- **Keeping the bare lines of a document only adds context.** If it is read without them, it is
read with them, and what it asks for is the same but for context that is bare text, and for hunks
that consist of this. Nothing is added if no section that updates a file has a bare line. If it is
not read with them, it is not read without them, and the error is not further down. -/
theorem actions_bareLines (settings : Settings) (text : String) :
    let skipped := actions { settings with bareLines := .skip } text
    let kept := actions { settings with bareLines := .context } text
    (∀ list, skipped = .ok list → ∃ fuller, kept = .ok fuller ∧
      List.Forall₂ ThinsAction list fuller ∧
      ((∀ part ∈ sections (Text.lines text), Text.beginsWith updateMark part.head = true →
        ∀ line ∈ part.rest, isBare line = false) → list = fuller)) ∧
    ∀ error, kept = .error error → ∃ earlier, skipped = .error earlier ∧
      earlier.lineNumber ≤ error.lineNumber := by
  intro skipped kept
  refine ⟨fun list hlist => ?_, fun error herror => ?_⟩
  · obtain ⟨hopened, hpreamble, hmeans, hclosed⟩ := (actions_eq_ok_iff _ _ _).1 hlist
    have hplain : ∀ part ∈ sections (Text.lines text), ∀ line ∈ part.rest,
        Text.beginsWith sectionMark line = false := fun part hpart =>
      ((cut_append (scanned (Text.lines text))).2.2 part hpart).2
    obtain ⟨fuller, hfuller, hthins, hsame⟩ := exists_forall₂_means_context hmeans hplain
    exact ⟨fuller, (actions_eq_ok_iff _ _ _).2 ⟨hopened, hpreamble, hfuller, hclosed⟩, hthins,
      hsame⟩
  · obtain ⟨earlier, hearlier, hle⟩ := (actions_eq_error_iff_hasError.1 herror).exists_skip
    exact ⟨earlier, actions_eq_error_iff_hasError.2 hearlier, hle⟩

/-- In the first text a remark is a hunk of its own if it is kept, in the second one it is all
that an update has. -/
theorem actions_bareLines_remarks :
    let text := "*** Begin Patch\n*** Update File: f\n@@ g\nnote\n@@ h\n-x\nnote"
    let other := "*** Begin Patch\n*** Update File: f\n@@\nnote\n*** Add File: g\n-x\n"
    (actions {} text = .ok [.update "f" [⟨some "h", [.remove "x"]⟩]] ∧
      ∃ fuller, actions { bareLines := .context } text = .ok fuller ∧
        List.Forall₂ ThinsAction [.update "f" [⟨some "h", [.remove "x"]⟩]] fuller) ∧
    actions { bareLines := .context } other = .error ⟨6, .badContent "-x"⟩ ∧
      ∃ earlier, actions {} other = .error earlier ∧ earlier.lineNumber ≤ 6 := by
  intro text other
  have htext : actions {} text = .ok [.update "f" [⟨some "h", [.remove "x"]⟩]] := by
    rw [actions, show read {} text = ⟨[.update "f" [⟨some "h", [.remove "x"]⟩]], none⟩ by
      decide +kernel]
    rfl
  have hother : actions { bareLines := .context } other = .error ⟨6, .badContent "-x"⟩ := by
    rw [actions, show read { bareLines := .context } other =
      ⟨[.update "f" [⟨none, [.context "note"]⟩]], some ⟨6, .badContent "-x"⟩⟩ by decide +kernel]
    rfl
  obtain ⟨fuller, hfuller, hthins, -⟩ := (actions_bareLines {} text).1 _ htext
  exact ⟨⟨htext, fuller, hfuller, hthins⟩, hother, (actions_bareLines {} other).2 _ hother⟩

end LinePatch.Document
