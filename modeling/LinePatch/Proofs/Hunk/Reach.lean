import LinePatch.Proofs.Hunk.Fitting
import Mathlib.Data.Nat.Find

/-!
# How far a hunk gets along the file

A hunk that keeps a line is walked along the file, and a line of the file is used up as soon as the
next line of the hunk that is kept or removed agrees with it. No other way of matching the two
could use more of the file: the walk gets as far as the longest beginning of the file whose lines
stand among the kept and removed lines of the hunk in this order, others between them or not. What
is used up gives way to the new side of the hunk, and each line of the old side that uses up nothing
is reported, with the line of the file that the walk stood at.

## Main definitions

* `Hunk.reach`: how many lines at the beginning of a file are found among texts.
* `Hunk.cursor`: where the walk stands in front of a line of the hunk.
* `Hunk.IsWalk`: what comes of a walk, told by how far it gets.

## Main results

* `Hunk.reach_cons_of_head?_eq`, `Hunk.reach_cons_of_head?_ne`: using up a line as soon as possible
  gets as far as possible.
* `Hunk.lines_walk`, `Hunk.recoveries_walk`: the file and the report after a walk.
* `Hunk.isWalk_applyTo`: the application of a hunk that keeps a line.
-/

namespace LinePatch

/-- The index of the line of a hunk that a recovery is about. -/
def Recovery.hunkLine? : Recovery → Option Nat
  | contextMismatch hunkLine _ _ | removalSkipped hunkLine _ _ => some hunkLine
  | removalNotFound _ => none

/-- The recovery that a line of a hunk needs where the walk stands at this line of the file. -/
def HunkLine.recovery? (index : Nat) (found : Option String) : HunkLine → Option Recovery
  | context text => if found = some text then none else some (.contextMismatch index text found)
  | remove text => if found = some text then none else some (.removalSkipped index text found)
  | add _ => none

namespace Hunk

variable {text : String} {texts file : List String}

/-! ### The longest beginning among texts -/

/-- The length of the longest beginning of a file whose lines stand among texts in this order. -/
def reach (texts file : List String) : Nat :=
  Nat.findGreatest (fun length => (file.take length).Sublist texts) file.length

/-- The beginnings of a file that stand among texts are those up to the longest one. -/
theorem sublist_take_iff {length : Nat} (h : length ≤ file.length) :
    (file.take length).Sublist texts ↔ length ≤ reach texts file := by
  refine ⟨fun hsublist => Nat.le_findGreatest h hsublist, fun hle => ?_⟩
  have hreach : (file.take (reach texts file)).Sublist texts :=
    Nat.findGreatest_spec (P := fun length => (file.take length).Sublist texts)
      (Nat.zero_le file.length) (List.nil_sublist texts)
  rw [← Nat.min_eq_left hle, ← List.take_take]
  exact (List.take_sublist length _).trans hreach

theorem reach_le_length (texts file : List String) : reach texts file ≤ file.length :=
  Nat.findGreatest_le file.length

theorem sublist_take_reach (texts file : List String) :
    (file.take (reach texts file)).Sublist texts :=
  (sublist_take_iff (reach_le_length texts file)).2 (Nat.le_refl _)

theorem reach_le_length_texts (texts file : List String) :
    reach texts file ≤ texts.length := by
  have hlength := (sublist_take_reach texts file).length_le
  rwa [List.length_take_of_le (reach_le_length texts file)] at hlength

@[simp] theorem reach_nil (file : List String) : reach [] file = 0 :=
  Nat.le_zero.1 (reach_le_length_texts [] file)

/-- A first text that is the first line of the file is best matched with it. -/
theorem reach_cons_of_head?_eq (h : file.head? = some text) :
    reach (text :: texts) file = reach texts file.tail + 1 := by
  obtain ⟨rest, rfl⟩ := List.head?_eq_some_iff.1 h
  rw [List.tail_cons]
  apply Nat.le_antisymm
  · cases hreach : reach (text :: texts) (text :: rest) with
    | zero => exact Nat.zero_le _
    | succ length =>
      have hlength := reach_le_length (text :: texts) (text :: rest)
      have hsublist := sublist_take_reach (text :: texts) (text :: rest)
      rw [hreach, List.length_cons] at hlength
      rw [hreach, List.take_succ_cons, List.cons_sublist_cons] at hsublist
      exact Nat.succ_le_succ ((sublist_take_iff (Nat.le_of_succ_le_succ hlength)).1 hsublist)
  · refine (sublist_take_iff (Nat.succ_le_succ (reach_le_length texts rest))).1 ?_
    rw [List.take_succ_cons, List.cons_sublist_cons]
    exact sublist_take_reach texts rest

/-- A first text that is not the first line of the file does not help. -/
theorem reach_cons_of_head?_ne (h : file.head? ≠ some text) :
    reach (text :: texts) file = reach texts file := by
  have hsublist : ∀ length, (file.take length).Sublist (text :: texts) ↔
      (file.take length).Sublist texts := by
    intro length
    rw [List.sublist_cons_iff, or_iff_left_iff_imp]
    rintro ⟨rest, hrest, -⟩
    cases file with
    | nil => simp at hrest
    | cons line file =>
      cases length with
      | zero => simp at hrest
      | succ length =>
        rw [List.take_succ_cons, List.cons.injEq] at hrest
        exact absurd (congrArg some hrest.1) h
  simp only [reach, hsublist]

/-- One more text reaches one line further if it is the line that comes next. -/
theorem reach_concat (texts : List String) (text : String) (file : List String) :
    reach (texts ++ [text]) file =
      if file[reach texts file]? = some text then reach texts file + 1 else reach texts file := by
  induction texts generalizing file with
  | nil =>
    by_cases h : file.head? = some text
    · simp [reach_cons_of_head?_eq h, ← List.head?_eq_getElem?, h]
    · simp [reach_cons_of_head?_ne h, ← List.head?_eq_getElem?, h]
  | cons first texts ih =>
    by_cases h : file.head? = some first
    · have hnext : file[reach texts file.tail + 1]? = file.tail[reach texts file.tail]? := by
        rw [List.getElem?_tail]
      rw [List.cons_append, reach_cons_of_head?_eq h, reach_cons_of_head?_eq h, ih, hnext]
      split <;> rfl
    · rw [List.cons_append, reach_cons_of_head?_ne h, reach_cons_of_head?_ne h, ih]

/-! ### The walk -/

/-- How many lines of a file are used up in front of the line of a hunk with this index. -/
def cursor (lines : List HunkLine) (file : List String) (index : Nat) : Nat :=
  reach ((lines.take index).filterMap HunkLine.old?) file

section

variable {line : HunkLine} (lines : List HunkLine) (index : Nat)

@[simp] theorem cursor_zero (file : List String) : cursor lines file 0 = 0 := by
  simp [cursor]

theorem cursor_cons_succ_of_none (hold : line.old? = none) (file : List String) :
    cursor (line :: lines) file (index + 1) = cursor lines file index := by
  rw [cursor, cursor, List.take_succ_cons, List.filterMap_cons_none hold]

theorem cursor_cons_succ_of_eq (hold : line.old? = some text) (h : file.head? = some text) :
    cursor (line :: lines) file (index + 1) = cursor lines file.tail index + 1 := by
  rw [cursor, cursor, List.take_succ_cons, List.filterMap_cons_some hold,
    reach_cons_of_head?_eq h]

theorem cursor_cons_succ_of_ne (hold : line.old? = some text) (h : file.head? ≠ some text) :
    cursor (line :: lines) file (index + 1) = cursor lines file index := by
  rw [cursor, cursor, List.take_succ_cons, List.filterMap_cons_some hold,
    reach_cons_of_head?_ne h]

/-- A line of the old side moves the walk on exactly if it is the line that the walk stands at. -/
theorem cursor_succ {lines : List HunkLine} {index : Nat} (hline : lines[index]? = some line)
    (hold : line.old? = some text) (file : List String) :
    cursor lines file (index + 1) =
      if file[cursor lines file index]? = some text then cursor lines file index + 1
      else cursor lines file index := by
  have htake : lines.take (index + 1) = lines.take index ++ [line] := by
    rw [List.take_add_one, hline]
    rfl
  rw [cursor, htake, List.filterMap_append, List.filterMap_cons_some hold, List.filterMap_nil,
    reach_concat]
  rfl

end

/-- **The file after a walk**: the new side of the hunk, and what is out of its reach. -/
theorem lines_walk (index : Nat) (lines : List HunkLine) (file : List String) :
    (walk index lines file).lines = lines.filterMap HunkLine.new? ++
      file.drop (reach (lines.filterMap HunkLine.old?) file) := by
  induction lines generalizing index file with
  | nil => simp [walk]
  | cons line lines ih =>
    cases line with
    | add text => simp [walk, Application.emit, List.filterMap_cons, HunkLine.new?,
        HunkLine.old?, ih]
    | context text | remove text =>
      by_cases h : file.head? = some text
      · simp [walk, Application.emit, List.filterMap_cons, HunkLine.new?, HunkLine.old?, h, ih,
          reach_cons_of_head?_eq h]
      · simp [walk, Application.emit, Application.report, List.filterMap_cons, HunkLine.new?,
          HunkLine.old?, h, ih, reach_cons_of_head?_ne h]

theorem strategy_walk (index : Nat) (lines : List HunkLine) (file : List String) :
    (walk index lines file).strategy = .positional := by
  fun_induction walk index lines file <;> simp_all [Application.emit, Application.report]

/-- Every text of the old side uses up a line or is reported. -/
theorem length_recoveries_walk (index : Nat) (lines : List HunkLine) (file : List String) :
    (walk index lines file).recoveries.length + reach (lines.filterMap HunkLine.old?) file =
      (lines.filterMap HunkLine.old?).length := by
  induction lines generalizing index file with
  | nil => simp [walk]
  | cons line lines ih =>
    cases line with
    | add text =>
      have hlater := ih (index + 1) file
      simpa [walk, Application.emit, List.filterMap_cons, HunkLine.old?] using hlater
    | context text | remove text =>
      by_cases h : file.head? = some text
      · have hlater := ih (index + 1) file.tail
        simp only [walk, if_pos h, Application.emit, List.filterMap_cons, HunkLine.old?,
          reach_cons_of_head?_eq h, List.length_cons]
        omega
      · have hlater := ih (index + 1) file
        simp only [walk, if_neg h, Application.emit, Application.report, List.filterMap_cons,
          HunkLine.old?, reach_cons_of_head?_ne h, List.length_cons]
        omega

/-- **The report of a walk**: the recovery, if it needs one, of each line of the hunk, where the
walk stands in front of it. -/
theorem recoveries_walk (index : Nat) (lines : List HunkLine) (file : List String) :
    (walk index lines file).recoveries = (List.range lines.length).filterMap fun i =>
      lines[i]?.bind (HunkLine.recovery? (i + index) file[cursor lines file i]?) := by
  induction lines generalizing index file with
  | nil => rfl
  | cons line lines ih =>
    have hhead : (line :: lines)[0]?.bind
        (HunkLine.recovery? (0 + index) file[cursor (line :: lines) file 0]?) =
        line.recovery? index file.head? := by
      rw [cursor_zero, Nat.zero_add, List.head?_eq_getElem?]
      rfl
    -- The other lines are walked along what the first one leaves of the file.
    have htail : ∀ later : List String,
        (∀ i, file[cursor (line :: lines) file (i + 1)]? = later[cursor lines later i]?) →
        ((List.range lines.length).map Nat.succ).filterMap (fun i => (line :: lines)[i]?.bind
          (HunkLine.recovery? (i + index) file[cursor (line :: lines) file i]?)) =
        (walk (index + 1) lines later).recoveries := by
      intro later hlater
      rw [ih, List.filterMap_map]
      congr 1
      funext i
      change lines[i]?.bind (HunkLine.recovery? (i + 1 + index)
        file[cursor (line :: lines) file (i + 1)]?) = _
      rw [hlater, Nat.add_assoc, Nat.add_comm 1 index]
    rw [List.length_cons, List.range_succ_eq_map, List.filterMap_cons, hhead]
    cases line with
    | add text =>
      rw [htail file fun i => congrArg (file[·]?) (cursor_cons_succ_of_none lines i rfl file)]
      rfl
    | context text | remove text =>
      by_cases h : file.head? = some text
      · rw [htail file.tail fun i => by
          rw [List.getElem?_tail]
          exact congrArg (file[·]?) (cursor_cons_succ_of_eq lines i rfl h)]
        simp only [walk, HunkLine.recovery?, if_pos h, Application.emit]
      · rw [htail file fun i => congrArg (file[·]?) (cursor_cons_succ_of_ne lines i rfl h)]
        simp only [walk, HunkLine.recovery?, if_neg h, Application.emit, Application.report]

/-! ### What comes of a walk -/

/-- What comes of a hunk that is walked along a file. The new side of the hunk stands in place of
what the walk has used up, which is the longest beginning of the file that stands among the texts of
the old side. The other texts of the old side are reported, in their order. -/
structure IsWalk (hunk : Hunk) (file : List String) (application : Application) : Prop where
  lines : application.lines = hunk.newTexts ++ file.drop (reach hunk.oldTexts file)
  strategy : application.strategy = .positional
  length_recoveries :
    application.recoveries.length + reach hunk.oldTexts file = hunk.oldTexts.length
  isClean_iff : application.isClean = true ↔ hunk.oldTexts <+: file
  /-- The report follows the order of the hunk, with no line reported twice. -/
  increasing : (application.recoveries.filterMap Recovery.hunkLine?).Pairwise (· < ·)
  /-- A reported line differs from the line of the file that the walk stands at, and the walk
  stays there. -/
  reported : ∀ recovery ∈ application.recoveries, ∃ index < hunk.lines.length, ∃ text,
    file[cursor hunk.lines file index]? ≠ some text ∧
    cursor hunk.lines file (index + 1) = cursor hunk.lines file index ∧
    (hunk.lines[index]? = some (.context text) ∧
        recovery = .contextMismatch index text file[cursor hunk.lines file index]? ∨
      hunk.lines[index]? = some (.remove text) ∧
        recovery = .removalSkipped index text file[cursor hunk.lines file index]?)
  /-- A line of the old side that is not reported is the line of the file that the walk stands at,
  and the walk moves on. -/
  matched : ∀ index line text, hunk.lines[index]? = some line → line.old? = some text →
    (∀ recovery ∈ application.recoveries, recovery.hunkLine? ≠ some index) →
    file[cursor hunk.lines file index]? = some text ∧
      cursor hunk.lines file (index + 1) = cursor hunk.lines file index + 1

/-- Texts reach as many lines as they are exactly if the file begins with them. -/
theorem reach_eq_length_iff : reach texts file = texts.length ↔ texts <+: file := by
  constructor
  · intro h
    have hlength : (file.take (reach texts file)).length = texts.length := by
      rw [List.length_take_of_le (reach_le_length texts file), h]
    rw [← (sublist_take_reach texts file).eq_of_length hlength]
    exact List.take_prefix _ file
  · rintro ⟨rest, rfl⟩
    have hall : ((texts ++ rest).take texts.length).Sublist texts := by simp
    exact Nat.le_antisymm (reach_le_length_texts texts _) ((sublist_take_iff (by simp)).1 hall)

/-- A line of a hunk needs a recovery exactly if it is one of the old side and the walk stands at
another line. -/
theorem recovery?_eq_none_iff {line : HunkLine} (hold : line.old? = some text) (index : Nat)
    {found : Option String} : line.recovery? index found = none ↔ found = some text := by
  cases line <;> simp_all [HunkLine.recovery?, HunkLine.old?]

theorem recovery?_eq_some_iff {line : HunkLine} {index : Nat} {found : Option String}
    {recovery : Recovery} :
    line.recovery? index found = some recovery ↔ ∃ text, found ≠ some text ∧
      (line = .context text ∧ recovery = .contextMismatch index text found ∨
        line = .remove text ∧ recovery = .removalSkipped index text found) := by
  cases line <;> simp [HunkLine.recovery?, eq_comm, and_left_comm]

theorem hunkLine?_of_recovery? {line : HunkLine} {index : Nat} {found : Option String}
    {recovery : Recovery} (h : line.recovery? index found = some recovery) :
    recovery.hunkLine? = some index := by
  obtain ⟨text, -, ⟨-, rfl⟩ | ⟨-, rfl⟩⟩ := recovery?_eq_some_iff.1 h <;> rfl

/-- A walk reports lines of the hunk only. -/
theorem hunkLine?_of_mem_recoveries_walk {index : Nat} {lines : List HunkLine} {file : List String}
    {recovery : Recovery} (h : recovery ∈ (walk index lines file).recoveries) :
    ∃ hunkLine, recovery.hunkLine? = some hunkLine := by
  rw [recoveries_walk] at h
  obtain ⟨i, -, hrecovery⟩ := List.mem_filterMap.1 h
  obtain ⟨line, -, hrecovery⟩ := Option.bind_eq_some_iff.1 hrecovery
  exact ⟨i + index, hunkLine?_of_recovery? hrecovery⟩

/-- **A hunk that keeps a line gets as far as any matching of its old side with the file could.** -/
theorem isWalk_applyTo {hunk : Hunk} (h : hunk.hasContext = true) (file : List String) :
    hunk.IsWalk file (hunk.applyTo file) := by
  have hwalk : hunk.applyTo file = walk 0 hunk.lines file := if_pos h
  have hrecoveries : (hunk.applyTo file).recoveries =
      (List.range hunk.lines.length).filterMap fun i =>
        hunk.lines[i]?.bind (HunkLine.recovery? i file[cursor hunk.lines file i]?) := by
    rw [hwalk, recoveries_walk]
    rfl
  have hlength : (hunk.applyTo file).recoveries.length + reach hunk.oldTexts file =
      hunk.oldTexts.length := by
    rw [hwalk]
    exact length_recoveries_walk 0 hunk.lines file
  have hmem : ∀ recovery, recovery ∈ (hunk.applyTo file).recoveries ↔
      ∃ index, ∃ line : HunkLine, hunk.lines[index]? = some line ∧
        line.recovery? index file[cursor hunk.lines file index]? = some recovery := by
    intro recovery
    simp only [hrecoveries, List.mem_filterMap, List.mem_range, Option.bind_eq_some_iff]
    refine exists_congr fun index => ⟨fun hright => hright.2, ?_⟩
    rintro ⟨line, hline, hrecovery⟩
    exact ⟨(List.getElem?_eq_some_iff.1 hline).1, line, hline, hrecovery⟩
  refine ⟨?_, ?_, hlength, ?_, ?_, ?_, ?_⟩
  · rw [hwalk, lines_walk]
    rfl
  · rw [hwalk, strategy_walk]
  · rw [Application.isClean_iff, ← reach_eq_length_iff, ← List.length_eq_zero_iff]
    omega
  · rw [hrecoveries, List.filterMap_filterMap, List.pairwise_filterMap]
    refine List.pairwise_lt_range.imp ?_
    intro i j hlt i' hi' j' hj'
    obtain ⟨recovery, hrecovery, hi'⟩ := Option.bind_eq_some_iff.1 hi'
    obtain ⟨line, -, hrecovery⟩ := Option.bind_eq_some_iff.1 hrecovery
    obtain ⟨recovery', hrecovery', hj'⟩ := Option.bind_eq_some_iff.1 hj'
    obtain ⟨line', -, hrecovery'⟩ := Option.bind_eq_some_iff.1 hrecovery'
    obtain rfl := Option.some.inj ((hunkLine?_of_recovery? hrecovery).symm.trans hi')
    obtain rfl := Option.some.inj ((hunkLine?_of_recovery? hrecovery').symm.trans hj')
    exact hlt
  · intro recovery hrecovery
    obtain ⟨index, line, hline, hrecovery⟩ := (hmem recovery).1 hrecovery
    obtain ⟨text, hfound, hkind⟩ := recovery?_eq_some_iff.1 hrecovery
    have hold : line.old? = some text := by
      rcases hkind with ⟨rfl, -⟩ | ⟨rfl, -⟩ <;> rfl
    refine ⟨index, (List.getElem?_eq_some_iff.1 hline).1, text, hfound, ?_, ?_⟩
    · rw [cursor_succ hline hold, if_neg hfound]
    · rw [hline]
      exact hkind.imp (And.imp_left (congrArg some)) (And.imp_left (congrArg some))
  · intro index line text hline hold hnone
    have hfound : file[cursor hunk.lines file index]? = some text := by
      rw [← recovery?_eq_none_iff hold index, Option.eq_none_iff_forall_ne_some]
      intro recovery hrecovery
      exact hnone recovery ((hmem recovery).2 ⟨index, line, hline, hrecovery⟩)
        (hunkLine?_of_recovery? hrecovery)
    exact ⟨hfound, by rw [cursor_succ hline hold, if_pos hfound]⟩

/-- Of the four lines that the hunk keeps and removes the file has the first and the last one, with
none between them. The walk stalls twice at the same line, and the file ends in a line that it does
not reach. -/
theorem isWalk_applyTo_two_stalls :
    let hunk : Hunk := ⟨none, [.context "a", .remove "b", .context "x", .add "n", .remove "c"]⟩
    hunk.hasContext = true ∧ reach hunk.oldTexts ["a", "c", "d"] = 2 ∧
      hunk.applyTo ["a", "c", "d"] = ⟨["a", "x", "n", "d"], .positional,
        [.removalSkipped 1 "b" (some "c"), .contextMismatch 2 "x" (some "c")]⟩ ∧
      hunk.IsWalk ["a", "c", "d"] ⟨["a", "x", "n", "d"], .positional,
        [.removalSkipped 1 "b" (some "c"), .contextMismatch 2 "x" (some "c")]⟩ := by
  intro hunk
  have hcontext : hunk.hasContext = true := rfl
  have happlied : hunk.applyTo ["a", "c", "d"] = ⟨["a", "x", "n", "d"], .positional,
      [.removalSkipped 1 "b" (some "c"), .contextMismatch 2 "x" (some "c")]⟩ := by decide
  exact ⟨hcontext, by decide, happlied, happlied ▸ isWalk_applyTo hcontext ["a", "c", "d"]⟩

end Hunk

end LinePatch
