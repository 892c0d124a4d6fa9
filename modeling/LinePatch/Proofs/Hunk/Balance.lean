import LinePatch.Proofs.Update

/-!
# What hunks add and take away

Line by line a hunk keeps accounts with the file: what it makes of the file, together with what
goes away, is what the file was, together with what the hunk adds. A hunk that is walked along the
file takes away the lines that it names as removed, and whatever it does otherwise is among its
recoveries. A hunk without kept lines takes away a stretch of the file, which begins with its first
removed line and is as long as its first run of removals; the other lines of the stretch are not
looked at, and the removals after the run are not carried out. An update in strict mode, where no
hunk needs a recovery, keeps the same accounts from its first hunk to its last.

## Main definitions

* `Hunk.removedTexts`: the lines that a hunk names as removed.
* `Hunk.displaced`, `Hunk.allDisplaced`: the lines that go away when hunks are applied.
* `Hunk.Balanced`: the account of a change.

## Main results

* `Hunk.count_walk`: the account of a hunk that is walked along the file, recoveries included.
* `Hunk.balanced_applyTo`: the account of a hunk that needs no recovery.
* `Hunk.balanced_strict_update`: the accounts of a hunk and of an update in strict mode, and the
  cases in which exactly the named lines go away.
-/

namespace LinePatch

/-- The text that the file loses by a line. -/
def HunkLine.removed? : HunkLine → Option String
  | remove text => some text
  | _ => none

/-- The text that a line of a hunk expected where it was not found. -/
def Recovery.expected : Recovery → String
  | contextMismatch _ expected _ | removalSkipped _ expected _ | removalNotFound expected =>
    expected

namespace Hunk

/-- The lines that a hunk names as removed. -/
def removedTexts (hunk : Hunk) : List String :=
  hunk.lines.filterMap HunkLine.removed?

/-- The lines that go away when a hunk is applied to a file without a recovery. -/
def displaced (hunk : Hunk) (file : List String) : List String :=
  if hunk.hasContext then hunk.removedTexts
  else
    (file.dropWhile fun line => some line ≠ hunk.firstRemovals.head?).take
      hunk.firstRemovals.length

/-- The lines that go away when hunks are applied one after the other. -/
def allDisplaced : List Hunk → List String → List String
  | [], _ => []
  | hunk :: hunks, file => hunk.displaced file ++ allDisplaced hunks (hunk.applyTo file).lines

/-- A change in which these lines go away and these come, each counted as often as it stands. -/
def Balanced (before after gone come : List String) : Prop :=
  ∀ text, after.count text + gone.count text = before.count text + come.count text

theorem Balanced.trans {first second third gone gone' come come' : List String}
    (h : Balanced first second gone come) (h' : Balanced second third gone' come') :
    Balanced first third (gone ++ gone') (come ++ come') := by
  intro text
  have := h text
  have := h' text
  rw [List.count_append, List.count_append]
  omega

/-- Two accounts of one change differ only in the order of the lines that go away. -/
theorem Balanced.iff_perm {before after gone gone' come : List String}
    (h : Balanced before after gone come) : Balanced before after gone' come ↔ gone.Perm gone' := by
  rw [List.perm_iff_count]
  refine forall_congr' fun text => ?_
  have := h text
  omega

/-! ### Hunks that are walked along the file -/

/-- **The account of a walk.** Each line that the hunk expected in vain is one more than the file
had: a kept one is written all the same, and a removed one does not go away. -/
theorem count_walk (text : String) (index : Nat) (lines : List HunkLine) (file : List String) :
    (walk index lines file).lines.count text + (lines.filterMap HunkLine.removed?).count text =
      file.count text + (lines.filterMap HunkLine.added?).count text +
        ((walk index lines file).recoveries.map Recovery.expected).count text := by
  induction lines generalizing index file with
  | nil => simp [walk]
  | cons line lines ih =>
    cases line with
    | add added =>
      have hlater := ih (index + 1) file
      simp only [walk, Application.emit, List.filterMap_cons, HunkLine.removed?, HunkLine.added?,
        List.count_cons]
      omega
    | context kept =>
      by_cases h : file.head? = some kept
      · obtain ⟨rest, rfl⟩ := List.head?_eq_some_iff.1 h
        have hlater := ih (index + 1) rest
        simp only [walk, if_pos h, List.tail_cons, Application.emit, List.filterMap_cons,
          HunkLine.removed?, HunkLine.added?, List.count_cons]
        omega
      · have hlater := ih (index + 1) file
        simp only [walk, if_neg h, Application.emit, Application.report, List.filterMap_cons,
          HunkLine.removed?, HunkLine.added?, List.map_cons, Recovery.expected, List.count_cons]
        omega
    | remove removed =>
      by_cases h : file.head? = some removed
      · obtain ⟨rest, rfl⟩ := List.head?_eq_some_iff.1 h
        have hlater := ih (index + 1) rest
        simp only [walk, if_pos h, List.tail_cons, List.filterMap_cons, HunkLine.removed?,
          HunkLine.added?, List.count_cons]
        omega
      · have hlater := ih (index + 1) file
        simp only [walk, if_neg h, Application.report, List.filterMap_cons, HunkLine.removed?,
          HunkLine.added?, List.map_cons, Recovery.expected, List.count_cons]
        omega

/-! ### Hunks that are put in the place of a stretch -/

theorem drop_eq_dropWhile {expected : String} {file : List String} {start : Nat}
    (h : file.idxOf? expected = some start) :
    file.drop start = file.dropWhile fun line => some line ≠ some expected := by
  induction file generalizing start with
  | nil => simp at h
  | cons line file ih =>
    rw [List.idxOf?_cons] at h
    by_cases heq : line = expected
    · have hstart : start = 0 := by simpa [heq, eq_comm] using h
      simp [heq, hstart]
    · simp only [beq_iff_eq, heq, if_false, Option.map_eq_some_iff] at h
      obtain ⟨before, hbefore, rfl⟩ := h
      simpa [heq] using ih hbefore

/-- A hunk that names no line as removed has no run of removals. -/
theorem firstRemovals_eq_nil {hunk : Hunk} (h : hunk.removedTexts = []) :
    hunk.firstRemovals = [] := by
  have hnone : hunk.lines.all (!·.isRemove) = true := by
    rw [List.all_eq_true]
    intro line hline
    have hline := List.filterMap_eq_nil_iff.1 h line hline
    cases line with
    | remove text => simp [HunkLine.removed?] at hline
    | context text | add text => rfl
  have hdrop : hunk.lines.dropWhile (!·.isRemove) = [] := by
    rw [← List.append_nil hunk.lines, List.dropWhile_append_of_pos (List.all_eq_true.1 hnone)]
    rfl
  rw [firstRemovals, hdrop]
  rfl

/-- A hunk that keeps a line, or removes none, makes exactly the lines go away that it names. -/
theorem displaced_eq_removedTexts {hunk : Hunk}
    (h : hunk.hasContext = true ∨ hunk.removedTexts = []) (file : List String) :
    hunk.displaced file = hunk.removedTexts := by
  unfold displaced
  split
  · rfl
  · rename_i hcontext
    have hnone := h.resolve_left hcontext
    rw [firstRemovals_eq_nil hnone, hnone]
    rfl

/-- The account of a hunk that is put in the place of its removals. -/
theorem balanced_replaceIn {hunk : Hunk} {file : List String}
    (h : (hunk.replaceIn file).isClean = true) :
    Balanced file (hunk.replaceIn file).lines
      ((file.dropWhile fun line => some line ≠ hunk.firstRemovals.head?).take
        hunk.firstRemovals.length) hunk.addedTexts := by
  intro text
  cases hremovals : hunk.firstRemovals with
  | nil => simp [replaceIn, hremovals, List.count_append, Nat.add_comm]
  | cons expected more =>
    cases hstart : file.idxOf? expected with
    | none => simp [replaceIn, hremovals, hstart, Application.isClean] at h
    | some start =>
      have hlines : (hunk.replaceIn file).lines =
          file.take start ++ hunk.addedTexts ++ file.drop (start + (more.length + 1)) := by
        simp only [replaceIn, hremovals, hstart]
      rw [List.head?_cons, List.length_cons, ← drop_eq_dropWhile hstart, hlines,
        List.count_append, List.count_append]
      have hfile : file.count text = (file.take start).count text +
          (((file.drop start).take (more.length + 1)).count text +
            (file.drop (start + (more.length + 1))).count text) := by
        rw [← List.drop_drop, ← List.count_append, List.take_append_drop, ← List.count_append,
          List.take_append_drop]
      omega

/-- **The account of a hunk that needs no recovery.** -/
theorem balanced_applyTo {hunk : Hunk} {file : List String}
    (h : (hunk.applyTo file).isClean = true) :
    Balanced file (hunk.applyTo file).lines (hunk.displaced file) hunk.addedTexts := by
  unfold applyTo at h ⊢
  unfold displaced
  split
  · rename_i hcontext
    rw [if_pos hcontext, Application.isClean_iff] at h
    intro text
    have hwalk := count_walk text 0 hunk.lines file
    rw [h] at hwalk
    simpa [removedTexts, addedTexts] using hwalk
  · rename_i hcontext
    rw [if_neg hcontext] at h
    exact balanced_replaceIn h

/-! ### Updates in strict mode -/

/-- The account of an update in strict mode, hunk by hunk. -/
theorem balanced_updateLines {path : String} {hunkIndex : Nat} {hunks : List Hunk}
    {file lines : List String}
    (h : (updateLines .strict path hunkIndex hunks file).result = .ok lines) :
    Balanced file lines (allDisplaced hunks file) (hunks.flatMap addedTexts) := by
  induction hunks generalizing hunkIndex file with
  | nil =>
    obtain rfl : file = lines := by simpa [updateLines] using h
    intro text
    simp [allDisplaced]
  | cons hunk hunks ih =>
    cases hrecoveries : (hunk.applyTo file).recoveries with
    | cons recovery more =>
      rw [updateLines_cons_of_strict hrecoveries] at h
      simp [Run.ofExcept] at h
    | nil =>
      have hclean := Application.isClean_iff.2 hrecoveries
      rw [updateLines_cons_of_isClean hclean] at h
      have hlater : (updateLines .strict path (hunkIndex + 1) hunks
          (hunk.applyTo file).lines).result = .ok lines := h
      exact (balanced_applyTo hclean).trans (ih hlater)

/-- Hunks that each keep a line, or remove none, make exactly the lines go away that they name. -/
theorem allDisplaced_eq_flatMap {hunks : List Hunk}
    (h : ∀ hunk ∈ hunks, hunk.hasContext = true ∨ hunk.removedTexts = []) (file : List String) :
    allDisplaced hunks file = hunks.flatMap removedTexts := by
  induction hunks generalizing file with
  | nil => rfl
  | cons hunk hunks ih =>
    rw [allDisplaced, List.flatMap_cons, displaced_eq_removedTexts (h hunk List.mem_cons_self),
      ih fun later hlater => h later (List.mem_cons_of_mem hunk hlater)]

/-- **What goes away in strict mode.** A hunk that needs no recovery keeps account of all lines, and
so does an update in strict mode that comes to its end, from the lines of the text to those that its
hunks make of them. The lines that go away are the ones that are named as removed exactly if these
are, up to their order, the displaced ones; so it is where every hunk keeps a line or removes
none. -/
theorem balanced_strict_update (hunk : Hunk) (hunks : List Hunk) (path text updated : String)
    (file : List String) :
    ((hunk.applyTo file).isClean = true →
      Balanced file (hunk.applyTo file).lines (hunk.displaced file) hunk.addedTexts ∧
        (Balanced file (hunk.applyTo file).lines hunk.removedTexts hunk.addedTexts ↔
          (hunk.displaced file).Perm hunk.removedTexts)) ∧
    ((∀ hunk ∈ hunks, hunk.hasContext = true ∨ hunk.removedTexts = []) →
      allDisplaced hunks file = hunks.flatMap removedTexts) ∧
    ((updateText .strict path text hunks).result = .ok updated →
      ∃ lines, (updateLines .strict path 0 hunks (Text.lines text)).result = .ok lines ∧
        updated = Text.unlines lines ∧
        Balanced (Text.lines text) lines (allDisplaced hunks (Text.lines text))
          (hunks.flatMap addedTexts) ∧
        (Balanced (Text.lines text) lines (hunks.flatMap removedTexts)
            (hunks.flatMap addedTexts) ↔
          (allDisplaced hunks (Text.lines text)).Perm (hunks.flatMap removedTexts))) := by
  refine ⟨fun h => ?_, fun h => allDisplaced_eq_flatMap h file, fun h => ?_⟩
  · exact ⟨balanced_applyTo h, (balanced_applyTo h).iff_perm⟩
  · obtain ⟨lines, hlines, rfl⟩ := updateText_result_eq_ok_iff.1 h
    have hbalanced := balanced_updateLines hlines
    exact ⟨lines, hlines, rfl, hbalanced, hbalanced.iff_perm⟩

/-- A hunk without kept lines takes two lines away that stand side by side, which are the ones that
it names. With a second hunk, which keeps a line, it makes an update. -/
theorem balanced_strict_update_replaced_stretch :
    let replacing : Hunk := ⟨none, [.remove "b", .remove "c", .add "x"]⟩
    let keeping : Hunk := ⟨none, [.context "a", .remove "x", .add "y"]⟩
    let file := ["a", "b", "c", "b"]
    (replacing.applyTo file).isClean = true ∧ replacing.hasContext = false ∧
      Balanced file (replacing.applyTo file).lines ["b", "c"] ["x"] ∧
      allDisplaced [keeping] ["a", "x", "b"] = ["x"] ∧
      (updateText .strict "p" "a\nb\nc\nb" [replacing, keeping]).result = .ok "a\ny\nb" ∧
      (updateLines .strict "p" 0 [replacing, keeping] file).result = .ok ["a", "y", "b"] ∧
      Balanced file ["a", "y", "b"] ["b", "c", "x"] ["x", "y"] := by
  intro replacing keeping file
  have hclean : (replacing.applyTo file).isClean = true := by decide
  have hupdate : (updateText .strict "p" "a\nb\nc\nb" [replacing, keeping]).result =
      .ok "a\ny\nb" := rfl
  have hlines : (updateLines .strict "p" 0 [replacing, keeping] file).result =
      .ok ["a", "y", "b"] := rfl
  obtain ⟨hhunk, -, hrun⟩ := balanced_strict_update replacing [replacing, keeping] "p"
    "a\nb\nc\nb" "a\ny\nb" file
  obtain ⟨-, hnamed, -⟩ := balanced_strict_update keeping [keeping] "p" "" "" ["a", "x", "b"]
  have hkeeping : ∀ hunk ∈ [keeping], hunk.hasContext = true ∨ hunk.removedTexts = [] := by decide
  obtain ⟨lines, hfound, -, -, hiff⟩ := hrun hupdate
  obtain rfl : ["a", "y", "b"] = lines := Except.ok.inj (hlines.symm.trans hfound)
  exact ⟨hclean, rfl, (hhunk hclean).2.2 (by decide), hnamed hkeeping, hupdate, hlines,
    hiff.2 (by decide)⟩

/-- Two removed lines of the file that do not stand side by side: the hunk is applied without a
recovery, the second one stays, and the line between them goes away. -/
theorem not_balanced_removals_apart :
    let hunk : Hunk := ⟨none, [.remove "a", .remove "b", .add "x"]⟩
    (hunk.applyTo ["a", "z", "b"]).isClean = true ∧
      (updateText .strict "p" "a\nz\nb" [hunk]).result = .ok "x\nb" ∧
      (hunk.applyTo ["a", "z", "b"]).lines = ["x", "b"] ∧
      ¬ Balanced ["a", "z", "b"] (hunk.applyTo ["a", "z", "b"]).lines hunk.removedTexts
        hunk.addedTexts := by
  refine ⟨by decide, rfl, by decide, fun h => ?_⟩
  exact absurd (h "z") (by decide)

end Hunk

end LinePatch
