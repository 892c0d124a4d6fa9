import LinePatch.Proofs.Command.Phases
import LinePatch.Proofs.Tree.Frame

/-!
# Where a commit may change the tree

A plan names the files that it writes and deletes. Every phase of a commit stays within what the
plan names, whatever has become of the tree before it: directories are made above written files
only, and files come and go at the places of their paths only.

## Main definitions

* `Commit.Plan.StaysIn`: plans that change a tree at such places only.

## Main results

* `Commit.changesOnly_makeDirectories`, `Commit.changesOnly_placeFiles`,
  `Commit.changesOnly_deleteFiles`: the bounds of each phase.
* `Commit.Plan.StaysIn.changesOnly_carryOut`: the bounds of a commit.
* `Commit.Plan.staysIn_ofChanges`: the bounds of what is planned for changes.
-/

namespace LinePatch

namespace Commit

variable {files directories : Place → Prop} {tree : Tree}

open LinePatch.Tree (ChangesOnly)

/-- Whatever becomes of the tree, a plan puts files only at such places and removes them only from
there, and it makes directories only at such places. -/
structure Plan.StaysIn (home : Place) (files directories : Place → Prop) (plan : Plan) : Prop where
  written : ∀ write ∈ plan.writes, ∀ tree : Tree, tree.home = home →
    ∀ place, tree.slot? write.path = some place → files place
  above : ∀ write ∈ plan.writes, ∀ place, Place.IsAbove home place write.path → directories place
  deleted : ∀ path ∈ plan.deletions, ∀ tree : Tree, tree.home = home →
    ∀ place, tree.slot? path = some place → files place

/-- A plan that stays within tight bounds stays within wide ones. -/
theorem Plan.StaysIn.mono {home : Place} {plan : Plan} {files' directories' : Place → Prop}
    (h : plan.StaysIn home files directories) (hfiles : ∀ place, files place → files' place)
    (hdirectories : ∀ place, directories place → directories' place) :
    plan.StaysIn home files' directories' where
  written write hwrite tree hhome place hplace :=
    hfiles place (h.written write hwrite tree hhome place hplace)
  above write hwrite place habove := hdirectories place (h.above write hwrite place habove)
  deleted path hpath tree hhome place hplace :=
    hfiles place (h.deleted path hpath tree hhome place hplace)

/-! ### Making directories -/

/-- The directories of a written file are above it. -/
theorem Write.isAbove_of_mem_directories (home : Place) {write : Write} {above : String}
    (h : above ∈ write.directories.2) (hdot : above ≠ ".") :
    Place.IsAbove home (Place.ofPath home above) write.path := by
  refine Place.isAbove_of_mem_ancestors home ?_
  unfold Write.directories at h
  cases hancestors : Path.ancestors write.path with
  | nil =>
    rw [hancestors] at h
    exact absurd (List.mem_singleton.1 h) hdot
  | cons nearest outer =>
    rw [hancestors] at h
    exact h

/-- Making the directories of one file makes directories only above it. -/
theorem changesOnly_directories {write : Write}
    (h : ∀ place, Place.IsAbove tree.home place write.path → directories place) :
    ChangesOnly files directories tree (tree.makeDirectories write.directories.2).1 := by
  refine (tree.gainsDirectories_makeDirectories _).changesOnly fun place => ?_
  refine (tree.node?_makeDirectories _ place).imp_right ?_
  rintro ⟨above, habove, hdot, rfl⟩
  exact h _ (write.isAbove_of_mem_directories tree.home habove hdot)

theorem changesOnly_makeDirectories {writes : List Write}
    (h : ∀ write ∈ writes, ∀ place, Place.IsAbove tree.home place write.path → directories place) :
    ChangesOnly files directories tree (makeDirectories tree writes).tree := by
  induction writes generalizing tree with
  | nil => exact .refl tree
  | cons write writes ih =>
    have hfirst : ChangesOnly files directories tree
        (tree.makeDirectories write.directories.2).1 :=
      changesOnly_directories (h write List.mem_cons_self)
    rw [makeDirectories]
    split
    · rename_i later hlater
      rw [hlater] at hfirst
      refine hfirst.trans (ih fun other hother => ?_)
      rw [hfirst.home_eq]
      exact h other (List.mem_cons_of_mem write hother)
    · rename_i later fault hlater
      rw [hlater] at hfirst
      exact hfirst

/-! ### Files that come and go -/

/-- A file that is put at a path comes to stand at its place. -/
theorem placeFile_eq_ok_iff {path : String} {content : ByteArray} {later : Tree} :
    tree.placeFile path content = .ok later ↔
      ∃ place, tree.slot? path = some place ∧ tree.put place (.file content) = later := by
  cases hslot : tree.slot? path with
  | none =>
    obtain ⟨fault, hfault⟩ := Tree.placeFile_of_slot?_eq_none hslot content
    simp [hfault]
  | some place => simp [Tree.placeFile_of_slot? hslot]

theorem changesOnly_placeFile {path : String} {content : ByteArray} {later : Tree}
    (h : ∀ place, tree.slot? path = some place → files place)
    (hlater : tree.placeFile path content = .ok later) :
    ChangesOnly files directories tree later := by
  obtain ⟨place, hplace, rfl⟩ := placeFile_eq_ok_iff.1 hlater
  exact Tree.changesOnly_put_file (Tree.ne_top_of_slot? hplace)
    (Tree.node?_ne_directory_of_slot? hplace) (h place hplace) content

theorem changesOnly_placeFiles {writes : List Write}
    (h : ∀ write ∈ writes, ∀ other : Tree, other.home = tree.home →
      ∀ place, other.slot? write.path = some place → files place) :
    ChangesOnly files directories tree (placeFiles tree writes).tree := by
  induction writes generalizing tree with
  | nil => exact .refl tree
  | cons write writes ih =>
    rw [placeFiles]
    split
    · rename_i later hlater
      have hfirst : ChangesOnly files directories tree later :=
        changesOnly_placeFile (h write List.mem_cons_self tree rfl) hlater
      refine hfirst.trans (ih fun other hother => ?_)
      rw [hfirst.home_eq]
      exact h other (List.mem_cons_of_mem write hother)
    · exact .refl tree

theorem changesOnly_deleteFiles {paths : List String}
    (h : ∀ path ∈ paths, ∀ other : Tree, other.home = tree.home →
      ∀ place, other.slot? path = some place → files place) :
    ChangesOnly files directories tree (deleteFiles tree paths).tree := by
  induction paths generalizing tree with
  | nil => exact .refl tree
  | cons path paths ih =>
    rw [deleteFiles]
    split
    · rename_i later hlater
      obtain ⟨place, hplace, -, rfl⟩ := Tree.removeFile_eq_ok_iff.1 hlater
      have hfirst : ChangesOnly files directories tree (tree.erase place) :=
        Tree.changesOnly_erase (Tree.ne_top_of_slot? hplace)
          (Tree.node?_ne_directory_of_slot? hplace)
          (h path List.mem_cons_self tree rfl place hplace)
      exact hfirst.trans (ih fun other hother => h other (List.mem_cons_of_mem path hother))
    · exact .refl tree

/-- One phase after another. -/
theorem changesOnly_andThen {outcome : Outcome} {next : Tree → Outcome}
    (h : ChangesOnly files directories tree outcome.tree)
    (hnext : ChangesOnly files directories outcome.tree (next outcome.tree).tree) :
    ChangesOnly files directories tree (outcome.andThen next).tree := by
  unfold Outcome.andThen
  split
  · exact h.trans hnext
  · exact h

/-- **A commit touches what its plan may touch**, whether or not it comes to its end. -/
theorem Plan.StaysIn.changesOnly_carryOut {plan : Plan}
    (h : plan.StaysIn tree.home files directories) :
    ChangesOnly files directories tree (plan.carryOut tree).tree := by
  have hmade : ChangesOnly files directories tree (makeDirectories tree plan.writes).tree :=
    changesOnly_makeDirectories h.above
  refine changesOnly_andThen hmade ?_
  have hplaced : ChangesOnly files directories (makeDirectories tree plan.writes).tree
      (placeFiles (makeDirectories tree plan.writes).tree plan.writes).tree :=
    changesOnly_placeFiles (hmade.home_eq ▸ h.written)
  refine changesOnly_andThen hplaced ?_
  exact changesOnly_deleteFiles (hplaced.home_eq ▸ hmade.home_eq ▸ h.deleted)

/-- What is planned for confined changes stays below the directory, at the places that they name,
and above the files that they write. -/
theorem Plan.staysIn_ofChanges (home : Place) (root : String) {changes : Changes}
    (hentries : ∀ entry ∈ changes.updated.entries ++ changes.added.entries,
      Path.isConfined entry.1 = true)
    (hpaths : ∀ path ∈ changes.deleted.paths, Path.isConfined path = true) :
    (Plan.ofChanges root changes).StaysIn home
      (fun place => place.IsBelow (Place.ofPath home root) ∧
        ∃ path ∈ changes.touched, place = Place.ofPath home (Path.join root path))
      (fun place => ∃ path ∈ changes.updated.paths ++ changes.added.paths,
        Place.IsAbove home place (Path.join root path)) := by
  have hslot : ∀ path ∈ changes.touched, Path.isConfined path = true → ∀ tree : Tree,
      tree.home = home → ∀ place, tree.slot? (Path.join root path) = some place →
        place.IsBelow (Place.ofPath home root) ∧
          ∃ path ∈ changes.touched, place = Place.ofPath home (Path.join root path) := by
    rintro path hpath hconfined tree rfl place hplace
    exact ⟨Tree.isBelow_of_slot?_join hconfined hplace, path, hpath,
      Tree.eq_ofPath_of_slot? hplace⟩
  have hmem : ∀ entry ∈ changes.updated.entries ++ changes.added.entries,
      entry.1 ∈ changes.updated.paths ++ changes.added.paths := by
    intro entry hentry
    rw [PathMap.paths, PathMap.paths, ← List.map_append]
    exact List.mem_map_of_mem hentry
  refine ⟨fun write hwrite => ?_, fun write hwrite place hplace => ?_, fun full hfull => ?_⟩
  · obtain ⟨entry, hentry, rfl⟩ := List.mem_map.1 hwrite
    refine hslot entry.1 (Changes.mem_touched_iff.2 ?_) (hentries entry hentry)
    rcases List.mem_append.1 (hmem entry hentry) with hupdated | hadded
    · exact .inl hupdated
    · exact .inr (.inl hadded)
  · obtain ⟨entry, hentry, rfl⟩ := List.mem_map.1 hwrite
    exact ⟨entry.1, hmem entry hentry, hplace⟩
  · obtain ⟨path, hpath, rfl⟩ := List.mem_map.1 hfull
    exact hslot path (Changes.mem_touched_iff.2 (.inr (.inr hpath))) (hpaths path hpath)

end Commit

end LinePatch
