import LinePatch.Proofs.Apply.Actions

/-!
# The stages of an update

Hunks that are applied one after the other take a file through stages: each hunk is applied to what
the hunks in front of it have made of the file. An update in lenient mode comes to the last stage.
In strict mode it comes there exactly if every hunk agrees with its stage, and otherwise it stops at
the first one that does not.

## Main definitions

* `Hunk.stage`: the file in front of the hunk with a given index.
* `Hunk.StopsAt`: where hunks stop that are applied in strict mode.

## Main results

* `Hunk.getElem?_applications`: the application of each hunk to its stage.
* `Hunk.firstRecovery?_eq_some_iff`: the first recovery, found along the stages.
* `updateText_result_iff_stages`: updates in both modes.
-/

namespace LinePatch

namespace Hunk

variable {hunk : Hunk} {hunks : List Hunk} {file : List String} {index : Nat}

/-- The file in front of the hunk with this index: what the hunks before it have made of a file. -/
def stage (hunks : List Hunk) (file : List String) (index : Nat) : List String :=
  (hunks.take index).foldl (fun file hunk => (hunk.applyTo file).lines) file

@[simp] theorem stage_zero (hunks : List Hunk) (file : List String) : stage hunks file 0 = file :=
  rfl

@[simp] theorem stage_cons_succ (hunk : Hunk) (hunks : List Hunk) (file : List String)
    (index : Nat) :
    stage (hunk :: hunks) file (index + 1) = stage hunks (hunk.applyTo file).lines index :=
  rfl

/-- The last stage is the file that all hunks make. -/
theorem unlines_stage_length (hunks : List Hunk) (text : String) :
    Text.unlines (stage hunks (Text.lines text) hunks.length) = applyAll hunks text := by
  rw [stage, List.take_length, applyAll]

/-- Each hunk is applied to its stage. -/
theorem getElem?_applications (hunks : List Hunk) (file : List String) (index : Nat) :
    (applications hunks file)[index]? =
      hunks[index]?.map fun hunk => hunk.applyTo (stage hunks file index) := by
  induction hunks generalizing file index with
  | nil => rfl
  | cons hunk hunks ih =>
    cases index with
    | zero => rfl
    | succ index => exact ih (hunk.applyTo file).lines index

theorem forall_mem_applications_iff {p : Application → Prop} :
    (∀ application ∈ applications hunks file, p application) ↔
      ∀ (index : Nat) (hunk : Hunk), hunks[index]? = some hunk →
        p (hunk.applyTo (stage hunks file index)) := by
  simp only [List.mem_iff_getElem?, getElem?_applications, Option.map_eq_some_iff]
  constructor
  · intro h index hunk hhunk
    exact h _ ⟨index, hunk, hhunk, rfl⟩
  · rintro h _ ⟨index, hunk, hhunk, rfl⟩
    exact h index hunk hhunk

/-- Where hunks stop that are applied in strict mode: the hunk with this index is the first one that
disagrees with its stage, and this is the first disagreement. -/
structure StopsAt (hunks : List Hunk) (file : List String) (index : Nat) (recovery : Recovery) :
    Prop where
  agreeing : ∀ earlier < index, ∀ hunk, hunks[earlier]? = some hunk →
    (hunk.applyTo (stage hunks file earlier)).isClean = true
  disagreeing : ∃ hunk, hunks[index]? = some hunk ∧
    (hunk.applyTo (stage hunks file index)).recoveries.head? = some recovery

/-- Behind a hunk that agrees with the file the later hunks stop where they do on their own. -/
theorem stopsAt_cons_succ_iff {recovery : Recovery} :
    StopsAt (hunk :: hunks) file (index + 1) recovery ↔
      (hunk.applyTo file).isClean = true ∧
        StopsAt hunks (hunk.applyTo file).lines index recovery := by
  constructor
  · rintro ⟨hagreeing, hdisagreeing⟩
    refine ⟨hagreeing 0 (Nat.succ_pos index) hunk rfl, fun earlier hearlier later hlater => ?_,
      hdisagreeing⟩
    exact hagreeing (earlier + 1) (Nat.succ_lt_succ hearlier) later hlater
  · rintro ⟨hclean, hagreeing, hdisagreeing⟩
    refine ⟨fun earlier hearlier other hother => ?_, hdisagreeing⟩
    cases earlier with
    | zero =>
      obtain rfl := Option.some.inj hother
      exact hclean
    | succ earlier => exact hagreeing earlier (Nat.lt_of_succ_lt_succ hearlier) other hother

theorem stopsAt_cons_zero_iff {recovery : Recovery} :
    StopsAt (hunk :: hunks) file 0 recovery ↔
      (hunk.applyTo file).recoveries.head? = some recovery := by
  constructor
  · rintro ⟨-, other, hother, hfirst⟩
    obtain rfl := Option.some.inj hother
    exact hfirst
  · exact fun h => ⟨fun earlier hearlier => absurd hearlier (Nat.not_lt_zero earlier),
      hunk, rfl, h⟩

/-- The first recovery is found along the stages. -/
theorem firstRecovery?_eq_some_iff_exists {start : Nat} {first : Nat × Recovery} :
    firstRecovery? start hunks file = some first ↔
      ∃ index, first.1 = start + index ∧ StopsAt hunks file index first.2 := by
  induction hunks generalizing start file with
  | nil =>
    constructor
    · intro h
      exact nomatch h
    · rintro ⟨index, -, -, hunk, hhunk, -⟩
      exact nomatch hhunk
  | cons hunk hunks ih =>
    rw [firstRecovery?_cons]
    cases hhead : (hunk.applyTo file).recoveries.head? with
    | none =>
      have hclean : (hunk.applyTo file).isClean = true :=
        Application.isClean_iff.2 (List.head?_eq_none_iff.1 hhead)
      rw [Option.map_none, Option.none_or, ih]
      constructor
      · rintro ⟨index, hindex, hstops⟩
        exact ⟨index + 1, by omega, stopsAt_cons_succ_iff.2 ⟨hclean, hstops⟩⟩
      · rintro ⟨index, hindex, hstops⟩
        cases index with
        | zero => exact nomatch hhead.symm.trans (stopsAt_cons_zero_iff.1 hstops)
        | succ index => exact ⟨index, by omega, (stopsAt_cons_succ_iff.1 hstops).2⟩
    | some recovery =>
      rw [Option.map_some, Option.some_or]
      constructor
      · rintro ⟨⟩
        exact ⟨0, rfl, stopsAt_cons_zero_iff.2 hhead⟩
      · rintro ⟨index, hindex, hstops⟩
        cases index with
        | zero =>
          obtain rfl := Option.some.inj (hhead.symm.trans (stopsAt_cons_zero_iff.1 hstops))
          rw [← Nat.add_zero start, ← hindex]
        | succ index =>
          exact absurd (stopsAt_cons_succ_iff.1 hstops).1 (Application.not_isClean_of_head? hhead)

/-- **The first recovery is that of the hunk at which the hunks stop.** -/
theorem firstRecovery?_eq_some_iff {recovery : Recovery} :
    firstRecovery? 0 hunks file = some (index, recovery) ↔ StopsAt hunks file index recovery := by
  rw [firstRecovery?_eq_some_iff_exists]
  constructor
  · rintro ⟨other, hindex, hstops⟩
    obtain rfl : index = other := by simpa using hindex
    exact hstops
  · exact fun hstops => ⟨index, (Nat.zero_add index).symm, hstops⟩

end Hunk

/-- **An update, told by its stages.** In lenient mode it comes to the last stage, which is the text
that the hunks make. In strict mode it comes there exactly if every hunk agrees with its stage; it
fails exactly where the first hunk disagrees with its stage, with the first disagreement. -/
theorem updateText_result_iff_stages (path text : String) (hunks : List Hunk) :
    (updateText .lenient path text hunks).result = .ok (Hunk.applyAll hunks text) ∧
    (∀ updated, (updateText .strict path text hunks).result = .ok updated ↔
      updated = Hunk.applyAll hunks text ∧
        ∀ (index : Nat) (hunk : Hunk), hunks[index]? = some hunk →
          (hunk.applyTo (Hunk.stage hunks (Text.lines text) index)).isClean = true) ∧
    ∀ error, (updateText .strict path text hunks).result = .error error ↔
      ∃ index recovery, error = .hunkRejected path index recovery ∧
        Hunk.StopsAt hunks (Text.lines text) index recovery := by
  have hstrict := result_updateText .strict path text hunks
  rw [Hunk.rejection?] at hstrict
  refine ⟨result_updateText .lenient path text hunks, fun updated => ?_, fun error => ?_⟩
  · rw [← Hunk.forall_mem_applications_iff (p := fun application => application.isClean = true),
      ← @Hunk.firstRecovery?_eq_none_iff 0, hstrict]
    cases Hunk.firstRecovery? 0 hunks (Text.lines text) <;> simp [eq_comm]
  · simp only [← Hunk.firstRecovery?_eq_some_iff]
    rw [hstrict]
    rcases Hunk.firstRecovery? 0 hunks (Text.lines text) with _ | ⟨index, recovery⟩
    · simp
    · simp [eq_comm]

end LinePatch
