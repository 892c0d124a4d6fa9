import LinePatch.Command.Staging
import LinePatch.Proofs.Command.Bounds

/-!
# Temporary files leave no trace

A staged commit changes a tree within the same bounds as a commit in place. What it touches besides
is temporary files. They are new when they are made, and at the end of the commit, wherever it is,
each of them has been moved or thrown away.

## Main results

* `Commit.changesOnly_stage`, `Commit.changesOnly_persist`: the bounds of the two stages, as if
  there were no temporary files.
* `Commit.Plan.StaysIn.changesOnly_carryOutStaged`: the bounds of a staged commit.
-/

namespace LinePatch.Commit

open LinePatch.Tree (ChangesOnly KeepsDirectories)

variable {files directories : Place → Prop} {tree before after : Tree} {place : Place}

/-! ### Throwing temporary files away -/

/-- A temporary file that is thrown away is gone, and nothing else is. -/
theorem discard_spec (file : Staged) (tree : Tree) :
    (∀ place, (file.discard tree).fileAt? place =
      if place = file.place then none else tree.fileAt? place) ∧
      KeepsDirectories tree (file.discard tree) ∧ KeepsDirectories (file.discard tree) tree := by
  unfold Staged.discard
  split
  · rename_i content hnode
    have hfree : tree.node? file.place ≠ some .directory := by
      rw [hnode]
      simp
    have htop : file.place ≠ [] := by
      intro htop
      rw [htop, Tree.node?_top] at hfree
      exact hfree rfl
    exact ⟨Tree.fileAt?_erase htop, Tree.keepsDirectories_erase htop hfree⟩
  · rename_i hnode
    refine ⟨fun place => ?_, .refl tree, .refl tree⟩
    split
    · rename_i hplace
      unfold Tree.fileAt?
      split
      · rename_i content hfile
        exact absurd (hplace ▸ hfile) (hnode content)
      · rfl
    · rfl

/-- Temporary files that are thrown away are gone, and nothing else is. -/
theorem discard_list_spec (tree : Tree) (staged : List Staged) :
    (∀ place, (discard tree staged).fileAt? place =
      if place ∈ staged.map Staged.place then none else tree.fileAt? place) ∧
      KeepsDirectories tree (discard tree staged) ∧
      KeepsDirectories (discard tree staged) tree := by
  induction staged generalizing tree with
  | nil => exact ⟨fun _ => rfl, .refl tree, .refl tree⟩
  | cons first later ih =>
    obtain ⟨hfirst, hkeeps, hkeeps'⟩ := discard_spec first tree
    obtain ⟨hlater, hrest, hrest'⟩ := ih (first.discard tree)
    refine ⟨fun place => ?_, hkeeps.trans hrest, hrest'.trans hkeeps'⟩
    change (discard (first.discard tree) later).fileAt? place = _
    simp only [hlater, hfirst, List.map_cons, List.mem_cons]
    by_cases hplace : place = first.place
    · simp [hplace]
    · simp [hplace]

/-- Bounded changes remain bounded when temporary files are thrown away before and after them. -/
theorem changesOnly_discard (h : ChangesOnly files directories before after)
    (staged : List Staged) :
    ChangesOnly files directories (discard before staged) (discard after staged) := by
  obtain ⟨hbefore, hkeeps, hkeeps'⟩ := discard_list_spec before staged
  obtain ⟨hafter, hlater, hlater'⟩ := discard_list_spec after staged
  refine ⟨hkeeps'.trans (h.toKeepsDirectories.trans hlater), fun place hplace => ?_,
    fun place hplace => ?_⟩
  · rw [hbefore, hafter] at hplace
    split at hplace
    · exact absurd rfl hplace
    · exact h.file place hplace
  · exact (h.new_directory place (hlater'.directory place hplace)).imp_left (hkeeps.directory place)

/-! ### Making temporary files -/

/-- A new file that is thrown away in the end might as well not have been there. -/
theorem changesOnly_of_put {file : Staged} {staged : List Staged} {content : ByteArray}
    (hnew : before.node? file.place = none)
    (h : ChangesOnly files directories (before.put file.place (.file content))
      (discard after staged)) :
    ChangesOnly files directories before (discard after (file :: staged)) := by
  have htop : file.place ≠ [] := by
    intro htop
    rw [htop, Tree.node?_top] at hnew
    exact nomatch hnew
  obtain ⟨hkeeps, hkeeps'⟩ :=
    Tree.keepsDirectories_put_file htop (by rw [hnew]; simp) content
  obtain ⟨hstaged, hlater, hlater'⟩ := discard_list_spec after staged
  obtain ⟨hall, hrest, hrest'⟩ := discard_list_spec after (file :: staged)
  refine ⟨(hkeeps.trans h.toKeepsDirectories).trans (hlater'.trans hrest), fun place hplace => ?_,
    fun place hplace => ?_⟩
  · simp only [hall, List.map_cons, List.mem_cons] at hplace
    by_cases hsame : place = file.place
    · have hnone : before.fileAt? place = none := by
        rw [Tree.fileAt?, hsame, hnew]
      exact absurd ((if_pos (.inl hsame)).trans hnone.symm) hplace
    · refine h.file place ?_
      rw [hstaged, Tree.fileAt?_put_file htop, if_neg hsame]
      simpa only [hsame, false_or] using hplace
  · have hdirectory := hlater.directory place (hrest'.directory place hplace)
    exact (h.new_directory place hdirectory).imp_left (hkeeps'.directory place)

/-- Making temporary files, and throwing them away again, makes only the directories of the files
that are written. -/
theorem changesOnly_stage (stager : Stager) {writes : List Write}
    (h : ∀ write ∈ writes, ∀ place, Place.IsAbove tree.home place write.path → directories place) :
    ChangesOnly files directories tree
      (discard (stage stager tree writes).1 (stage stager tree writes).2.1) := by
  induction writes generalizing tree with
  | nil => exact .refl tree
  | cons write writes ih =>
    have hmade : ChangesOnly files directories tree
        (tree.makeDirectories write.directories.2).1 :=
      changesOnly_directories (h write List.mem_cons_self)
    rw [stage]
    split
    · rename_i later fault hlater
      rw [hlater] at hmade
      exact hmade
    · rename_i later hlater
      rw [hlater] at hmade
      split
      · exact hmade
      · rename_i place hplace
        refine hmade.trans (changesOnly_of_put (stager.node?_place hplace)
          (ih fun other hother => ?_))
        rw [show (later.put place (.file write.text.toUTF8)).home = tree.home from hmade.home_eq]
        exact h other (List.mem_cons_of_mem write hother)

/-! ### Moving them to their paths -/

theorem persist_eq_ok_iff {file : Staged} {later : Tree} :
    file.persist tree = .ok later ↔
      ∃ content, tree.node? file.place = some (.file content) ∧
        (file.discard tree).placeFile file.write.path content = .ok later := by
  unfold Staged.persist Staged.discard
  rcases tree.node? file.place with _ | _ | content <;> simp

/-- Temporary files are moved within the same bounds as if they were written in place. -/
theorem changesOnly_persist {staged : List Staged}
    (h : ∀ file ∈ staged, ∀ other : Tree, other.home = tree.home →
      ∀ place, other.slot? file.write.path = some place → files place) :
    ChangesOnly files directories (discard tree staged) (persist tree staged).tree := by
  induction staged generalizing tree with
  | nil => exact .refl tree
  | cons file staged ih =>
    rw [persist]
    split
    · rename_i later hlater
      obtain ⟨content, -, hplaced⟩ := persist_eq_ok_iff.1 hlater
      have hhome : (file.discard tree).home = tree.home := (discard_spec file tree).2.1.home_eq
      have hfirst : ChangesOnly files directories (file.discard tree) later :=
        changesOnly_placeFile (h file List.mem_cons_self _ hhome) hplaced
      refine (changesOnly_discard hfirst staged).trans (ih fun other hother => ?_)
      rw [hfirst.home_eq, hhome]
      exact h other (List.mem_cons_of_mem file hother)
    · exact .refl _

/-- The temporary files of a plan are those of its writes. -/
theorem write_mem_of_mem_stage {stager : Stager} {writes : List Write} {file : Staged}
    (h : file ∈ (stage stager tree writes).2.1) : file.write ∈ writes := by
  induction writes generalizing tree with
  | nil => exact nomatch h
  | cons write writes ih =>
    rw [stage] at h
    split at h
    · exact nomatch h
    · split at h
      · exact nomatch h
      · rcases List.mem_cons.1 h with rfl | hlater
        · exact List.mem_cons_self
        · exact List.mem_cons_of_mem write (ih hlater)

/-- **A staged commit touches what its plan may touch**, whether or not it comes to its end, and
whatever temporary files it makes. -/
theorem Plan.StaysIn.changesOnly_carryOutStaged {plan : Plan}
    (h : plan.StaysIn tree.home files directories) (stager : Stager) :
    ChangesOnly files directories tree (plan.carryOutStaged stager tree).tree := by
  have hstaged : ChangesOnly files directories tree _ := changesOnly_stage stager h.above
  have hwrites : ∀ file ∈ (stage stager tree plan.writes).2.1, file.write ∈ plan.writes :=
    fun file hfile => write_mem_of_mem_stage hfile
  unfold carryOutStaged
  rcases hstage : stage stager tree plan.writes with ⟨later, staged, _ | refusal⟩
  · rw [hstage] at hstaged hwrites
    have hhome : later.home = tree.home :=
      (discard_list_spec later staged).2.2.home_eq.trans hstaged.home_eq
    have hpersist : ChangesOnly files directories (discard later staged)
        (persist later staged).tree :=
      changesOnly_persist fun file hfile => hhome ▸ h.written file.write (hwrites file hfile)
    refine changesOnly_andThen (hstaged.trans hpersist) ?_
    refine changesOnly_deleteFiles ?_
    rw [hpersist.home_eq, hstaged.home_eq]
    exact h.deleted
  · rw [hstage] at hstaged
    exact hstaged

end LinePatch.Commit
