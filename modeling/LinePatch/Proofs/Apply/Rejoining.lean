import LinePatch.Proofs.Apply.Replay

/-!
# Cutting a text and joining it again

An updated file is cut into lines and joined again, whether or not a hunk has touched it. That
turns every line break into a plain line feed, and it also costs a carriage return with which the
text ends: no line feed follows it, but it is taken for the beginning of a line ending all the same.
Nothing else is changed. The hunks of an update that find no place leave it at that.

## Main definitions

* `Text.withPlainBreaks`: a text whose line breaks are plain line feeds.
* `Text.returnAtEnd`: the carriage return with which a text ends.

## Main results

* `Text.unlines_lines_append_returnAtEnd`: what cutting and joining make of a text.
* `Hunk.stage_of_unmatched`: hunks that find no place.
* `updateText_unmatched`: updates that leave a file as it is.
-/

namespace LinePatch

namespace Text

/-- Characters without the carriage returns that a line feed follows: what was a carriage return and
a line feed is a line feed alone. -/
def plainBreaks : List Char → List Char
  | [] => []
  | c :: more =>
    if c = '\r' ∧ more.head? = some '\n' then plainBreaks more else c :: plainBreaks more

/-- A text whose line breaks are plain line feeds. -/
def withPlainBreaks (text : String) : String :=
  String.ofList (plainBreaks text.toList)

/-- The carriage return with which a text ends, if it does. -/
def returnAtEnd (text : String) : String :=
  if text.toList.getLast? = some '\r' then "\r" else ""

/-! ### Line breaks of a text -/

theorem plainBreaks_lineFeed (more : List Char) :
    plainBreaks ('\n' :: more) = '\n' :: plainBreaks more := by
  simp [plainBreaks]

/-- A carriage return and a line feed become a line feed. -/
theorem plainBreaks_return_lineFeed (more : List Char) :
    plainBreaks ('\r' :: '\n' :: more) = '\n' :: plainBreaks more := by
  rw [plainBreaks, if_pos ⟨rfl, rfl⟩, plainBreaks_lineFeed]

/-- Where no line feed follows, every character stays. -/
theorem plainBreaks_cons_of_ne {c : Char} {more : List Char} (h : more.head? ≠ some '\n') :
    plainBreaks (c :: more) = c :: plainBreaks more := by
  rw [plainBreaks, if_neg fun hbreak => h hbreak.2]

theorem plainBreaks_of_not_mem {line : List Char} (h : '\n' ∉ line) : plainBreaks line = line := by
  induction line with
  | nil => rfl
  | cons c more ih =>
    have hmore : '\n' ∉ more := fun hmem => h (List.mem_cons_of_mem c hmem)
    rw [plainBreaks_cons_of_ne fun hhead => hmore (List.mem_of_mem_head? hhead), ih hmore]

/-- Of a line above a line feed, the carriage return at its end is left out. -/
theorem plainBreaks_append_lineFeed {line : List Char} (h : '\n' ∉ line) (back : List Char) :
    plainBreaks (line ++ '\n' :: back) = chomp line ++ '\n' :: plainBreaks back := by
  fun_induction chomp line with
  | case1 => exact plainBreaks_lineFeed back
  | case2 => exact plainBreaks_return_lineFeed back
  | case3 c more hne ih =>
    have hmore : '\n' ∉ more := fun hmem => h (List.mem_cons_of_mem c hmem)
    rw [List.cons_append, List.cons_append, plainBreaks, if_neg, ih hmore]
    rintro ⟨rfl, hhead⟩
    cases more with
    | nil => exact hne rfl rfl
    | cons d more =>
      obtain rfl := Option.some.inj hhead
      exact hmore List.mem_cons_self

theorem withPlainBreaks_of_not_mem {line : String} (h : '\n' ∉ line.toList) :
    withPlainBreaks line = line := by
  rw [withPlainBreaks, plainBreaks_of_not_mem h, String.ofList_toList]

theorem withPlainBreaks_append_lineFeed {line : String} (h : '\n' ∉ line.toList) (back : String) :
    withPlainBreaks (line ++ "\n" ++ back) = chomped line ++ "\n" ++ withPlainBreaks back := by
  simp [withPlainBreaks, chomped, plainBreaks_append_lineFeed h, ← String.toList_inj]

/-! ### The carriage return at the end of a text -/

theorem chomped_append_returnAtEnd (line : String) : chomped line ++ returnAtEnd line = line := by
  by_cases hlast : line.toList.getLast? = some '\r'
  · obtain ⟨front, hfront⟩ := List.getLast?_eq_some_iff.1 hlast
    simp [chomped, returnAtEnd, hfront, chomp_concat_return, ← String.toList_inj]
  · rw [chomped, returnAtEnd, chomp_eq_self hlast, if_neg hlast, String.ofList_toList,
      String.append_empty]

theorem returnAtEnd_append_lineFeed (front back : String) :
    returnAtEnd (front ++ "\n" ++ back) = returnAtEnd back := by
  have hlast : (front ++ "\n" ++ back).toList.getLast? = some '\r' ↔
      back.toList.getLast? = some '\r' := by
    rw [String.toList_append, String.toList_append, List.getLast?_append]
    cases back.toList.getLast? <;> simp
  simp only [returnAtEnd, hlast]

theorem returnAtEnd_eq_empty_iff {text : String} :
    returnAtEnd text = "" ↔ text.toList.getLast? ≠ some '\r' := by
  unfold returnAtEnd
  split_ifs with hlast <;> simp [hlast]

/-- **What cutting a text and joining it again make of it**: the text with plain line breaks, less
the carriage return with which it ends. -/
theorem unlines_lines_append_returnAtEnd (text : String) :
    unlines (lines text) ++ returnAtEnd text = withPlainBreaks text := by
  induction text using induction_lineFeed with
  | line line h =>
    rw [lines_eq_singleton h, unlines_singleton, chomped_append_returnAtEnd,
      withPlainBreaks_of_not_mem h]
  | above line back h ih =>
    rw [lines_append_lineFeed, unlines_append (lines_ne_nil line) (lines_ne_nil back),
      returnAtEnd_append_lineFeed, String.append_assoc, ih, withPlainBreaks_append_lineFeed h,
      lines_eq_singleton h, unlines_singleton]

end Text

/-! ### Hunks that find no place -/

namespace Hunk

/-- A hunk that finds no place leaves the file as it is. -/
theorem lines_applyTo_of_unmatched {hunk : Hunk} {file : List String}
    (h : (hunk.applyTo file).strategy = .unmatched) : (hunk.applyTo file).lines = file := by
  rw [lines_applyTo_eq_redo, h, redo]

/-- **Hunks that find no place** leave the file as it is at every stage. -/
theorem stage_of_unmatched {hunks : List Hunk} {file : List String}
    (h : ∀ application ∈ applications hunks file, application.strategy = .unmatched)
    (index : Nat) : stage hunks file index = file := by
  induction hunks generalizing index with
  | nil => simp [stage]
  | cons hunk hunks ih =>
    obtain ⟨hhunk, hhunks⟩ := List.forall_mem_cons.1 h
    rw [lines_applyTo_of_unmatched hhunk] at hhunks
    cases index with
    | zero => rfl
    | succ index => rw [stage_cons_succ, lines_applyTo_of_unmatched hhunk, ih hhunks]

end Hunk

/-- The way in which each hunk was applied is reported. -/
theorem exists_hunkApplied_mem_hunkEvents (path : String) (hunkIndex : Nat)
    {applications : List Application} {application : Application} (h : application ∈ applications) :
    ∃ index, .hunkApplied path index application.strategy ∈
      hunkEvents path hunkIndex applications := by
  obtain ⟨index, hindex⟩ := List.mem_iff_getElem?.1 h
  have hreport : .hunkApplied path (hunkIndex + index) application.strategy ∈
      reportOn (hunkEvents path hunkIndex applications) (hunkIndex + index) := by
    rw [reportOn_hunkEvents path hunkIndex hindex]
    exact List.mem_append_right _ (List.mem_singleton_self _)
  exact ⟨_, (List.mem_filter.1 hreport).1⟩

/-- **An update whose hunks find no place.** Cutting a text and joining it again gives the text with
plain line breaks, less the carriage return with which it ends; so nothing but the line breaks is
changed exactly if it does not end with one. That is what an update without hunks makes of the text,
and what an update in lenient mode makes of it that reports of no hunk that it found a place. -/
theorem updateText_unmatched (path text : String) (hunks : List Hunk) :
    let rejoined := Text.unlines (Text.lines text)
    rejoined ++ Text.returnAtEnd text = Text.withPlainBreaks text ∧
    (rejoined = Text.withPlainBreaks text ↔ text.toList.getLast? ≠ some '\r') ∧
    Hunk.applyAll [] text = rejoined ∧
    ((∀ index strategy,
        .hunkApplied path index strategy ∈ (updateText .lenient path text hunks).events →
          strategy = .unmatched) →
      Hunk.applyAll hunks text = rejoined ∧
        (updateText .lenient path text hunks).result = .ok rejoined) := by
  intro rejoined
  have hlaw := Text.unlines_lines_append_returnAtEnd text
  refine ⟨hlaw, ?_, rfl, fun hreported => ?_⟩
  · rw [← hlaw, ← Text.returnAtEnd_eq_empty_iff, ← String.toList_inj, String.toList_append,
      List.self_eq_append_right, String.toList_eq_nil_iff]
  · have hresult := result_updateText .lenient path text hunks
    obtain ⟨-, hevents⟩ := updateText_of_result_eq_ok hresult
    have hunmatched : ∀ application ∈ Hunk.applications hunks (Text.lines text),
        application.strategy = .unmatched := by
      intro application happlication
      obtain ⟨index, hindex⟩ := exists_hunkApplied_mem_hunkEvents path 0 happlication
      exact hreported index application.strategy (hevents ▸ hindex)
    have hall : Hunk.applyAll hunks text = rejoined := by
      rw [← Hunk.unlines_stage_length, Hunk.stage_of_unmatched hunmatched]
    exact ⟨hall, hall ▸ hresult⟩

/-- Carriage returns stand in front of line breaks, within a line and at the end, and two hunks find
no place. -/
theorem updateText_unmatched_returns :
    let text := "\ra\r\r\n\r\nb\rc\n\nd\r\r"
    let hunks : List Hunk := [⟨none, [.remove "a", .add "z"]⟩, ⟨none, [.remove "q", .remove "d"]⟩]
    Text.withPlainBreaks text = "\ra\r\n\nb\rc\n\nd\r\r" ∧
    (updateText .lenient "f" text hunks).events =
      [.fuzzyRecovery "f" 0 (.removalNotFound "a"), .hunkApplied "f" 0 .unmatched,
        .fuzzyRecovery "f" 1 (.removalNotFound "q"), .hunkApplied "f" 1 .unmatched] ∧
    (updateText .lenient "f" text hunks).result = .ok "\ra\r\n\nb\rc\n\nd\r" := by
  intro text hunks
  have hevents : (updateText .lenient "f" text hunks).events =
      [.fuzzyRecovery "f" 0 (.removalNotFound "a"), .hunkApplied "f" 0 .unmatched,
        .fuzzyRecovery "f" 1 (.removalNotFound "q"), .hunkApplied "f" 1 .unmatched] := by
    decide +kernel
  have hrejoined : Text.unlines (Text.lines text) = "\ra\r\n\nb\rc\n\nd\r" := by decide +kernel
  obtain ⟨-, -, -, happly⟩ := updateText_unmatched "f" text hunks
  have hunmatched (index : Nat) (strategy : Strategy)
      (h : .hunkApplied "f" index strategy ∈ (updateText .lenient "f" text hunks).events) :
      strategy = .unmatched := by
    rw [hevents] at h
    simp only [List.mem_cons, List.not_mem_nil, reduceCtorEq, Event.hunkApplied.injEq, false_or,
      or_false] at h
    rcases h with ⟨-, -, h⟩ | ⟨-, -, h⟩ <;> exact h
  have hresult := (happly hunmatched).2
  rw [hrejoined] at hresult
  exact ⟨by decide +kernel, hevents, hresult⟩

/-- A carriage return with which a text ends is lost, also where no hunk touches the text. -/
theorem not_withPlainBreaks_return_at_end :
    Text.withPlainBreaks "a\r" = "a\r" ∧ Text.unlines (Text.lines "a\r") = "a" ∧
      Hunk.applyAll [] "a\r" = "a" := by
  decide +kernel

end LinePatch
