import LinePatch.Proofs.Command.Staging
import LinePatch.Proofs.Tree.Hidden

/-!
# Staged commits and commits in place

A staged commit does to a tree what a commit in place does, as long as its temporary files can be
made and have names of their own: it is refused for the same reason, if at all, it does the same to
the same files, and it leaves the same tree. For while it goes on, its tree is that of the commit in
place with the temporary files added, and these are not on the way to anything. If a temporary file
cannot be made, the commit is refused before it has done anything to a file.

## Main definitions

* `Commit.Method.KeepsApart`: temporary files that have names of their own.
* `Commit.Method.FailsToStage`: temporary files that cannot be made.
* `Commit.Outcome.Agrees`: outcomes that nothing tells apart.
* `Commit.Shadows`: a tree with temporary files beside the same tree without them.

## Main results

* `Commit.Stager.keepsApart_unspelled`: names that no path spells are names of their own.
* `stagedCommit_agrees`: staged commits are like commits in place, if all texts can be staged.
* `Commit.Method.failsToStage_or_agrees`, `Commit.Method.commit_of_failsToStage`: commits by any
  method, and what is left of those that fail on its account.
-/

namespace LinePatch

namespace Commit

open LinePatch.Tree (SameFiles SameOff AgreeOff)

/-- The paths that are followed when a plan is carried out. -/
def Plan.paths (plan : Plan) : List String :=
  plan.writes.flatMap (fun write => write.path :: write.directories.2) ++ plan.deletions

/-- No temporary file is made on the way to one of the paths. -/
def Stager.KeepsApart (home : Place) (paths : List String) (stager : Stager) : Prop :=
  ∀ {tree : Tree} {directory place}, tree.home = home →
    stager.place? tree directory = .ok place → ∀ path ∈ paths, ¬ Place.IsOn home place path

/-- Names that no path spells are names of their own. -/
theorem Stager.keepsApart_unspelled {home : Place} (hhome : ∀ name ∈ home, '/' ∉ name.toList)
    (paths : List String) : Stager.unspelled.KeepsApart home paths := by
  rintro tree directory place - hplace path - ⟨front, back, hnames, hfollow⟩
  obtain ⟨here, -, -, rfl⟩ := Stager.place?_unspelled_eq_ok_iff.1 hplace
  have hslash := slash_mem_unspelledName tree
  have hmem : unspelledName tree ∈ Place.follow (Place.start home path) front := by
    rw [hfollow]
    simp
  rcases Place.mem_of_mem_follow hmem with hstart | hfront
  · refine hhome _ ?_ hslash
    unfold Place.start at hstart
    split at hstart
    · simp at hstart
    · exact hstart
  · have hname : unspelledName tree ∈ Path.names path := hnames ▸ List.mem_append_left back hfront
    exact Path.slash_not_mem_of_mem_names hname hslash

/-- There is a text of the changes for which no temporary file is made. -/
def Stager.Fails (root : String) (changes : Changes) (tree : Tree) (stager : Stager) : Prop :=
  ∃ plan path reason, Commit.plan tree root changes = .ok plan ∧
    (stage stager tree plan.writes).2.2 = some (.fileNotStaged path reason)

/-- What is made by a method besides the files themselves is not on the way to one of the paths. -/
def Method.KeepsApart (home : Place) (paths : List String) : Method → Prop
  | inPlace => True
  | staged stager => stager.KeepsApart home paths

/-- A method fails on account of what it makes besides the files themselves. -/
def Method.FailsToStage (root : String) (changes : Changes) (tree : Tree) : Method → Prop
  | inPlace => False
  | staged stager => stager.Fails root changes tree

/-- Both outcomes are the same, but for the way in which the trees are written down. -/
structure Outcome.Agrees (outcome other : Outcome) : Prop where
  tree : SameOff (fun _ => False) outcome.tree other.tree
  deeds : other.deeds = outcome.deeds
  refusal : other.refusal? = outcome.refusal?

/-- Both outcomes leave the same files. -/
theorem Outcome.Agrees.fileAt? {outcome other : Outcome} (h : outcome.Agrees other)
    (place : Place) : other.tree.fileAt? place = outcome.tree.fileAt? place := by
  unfold Tree.fileAt?
  rw [h.tree.node?_eq place not_false]

/-- Every path leads to the same after both outcomes. -/
theorem Outcome.Agrees.nodeAt? {outcome other : Outcome} (h : outcome.Agrees other)
    (path : String) : other.tree.nodeAt? path = outcome.tree.nodeAt? path :=
  h.tree.nodeAt? fun _ _ => not_false

/-- The first tree has no temporary files. The second one has all of these, with their texts, and
none of them is on the way to one of the paths. -/
structure Shadows (home : Place) (paths : List String) (staged : List Staged)
    (bare shown : Tree) : Prop where
  home_eq : bare.home = home
  same : SameOff (· ∈ staged.map Staged.place) bare shown
  shown_file : ∀ file ∈ staged, shown.node? file.place = some (.file file.write.text.toUTF8)
  bare_none : ∀ file ∈ staged, bare.node? file.place = none
  apart : ∀ file ∈ staged, ∀ path ∈ paths, ¬ Place.IsOn home file.place path
  nodup : (staged.map Staged.place).Nodup

variable {home : Place} {paths : List String} {staged : List Staged} {bare shown : Tree}
  {stager : Stager}

theorem Shadows.not_mem (h : Shadows home paths staged bare shown) {path : String}
    (hpath : path ∈ paths) :
    ∀ place, Place.IsOn bare.home place path → place ∉ staged.map Staged.place := by
  rintro place hplace hmem
  obtain ⟨file, hfile, rfl⟩ := List.mem_map.1 hmem
  exact h.apart file hfile path hpath (h.home_eq ▸ hplace)

/-- Without temporary files there is one tree only. -/
theorem shadows_nil (tree : Tree) : Shadows tree.home paths [] tree tree :=
  ⟨rfl, .refl tree, nofun, nofun, nofun, .nil⟩

/-- One temporary file goes. -/
theorem Shadows.tail {file : Staged} (h : Shadows home paths (file :: staged) bare shown) :
    Shadows home paths staged bare (file.discard shown) := by
  have hfile := h.shown_file file List.mem_cons_self
  have htop : file.place ≠ [] := by
    intro htop
    rw [htop, Tree.node?_top] at hfile
    simp at hfile
  have hgone : file.discard shown = shown.erase file.place := by
    rw [Staged.discard, hfile]
  obtain ⟨hapart, hnodup⟩ := List.nodup_cons.1 h.nodup
  rw [hgone]
  refine ⟨h.home_eq, ⟨h.same.home_eq, fun place hplace => ?_⟩, fun later hlater => ?_,
    fun later hlater => h.bare_none later (List.mem_cons_of_mem file hlater),
    fun later hlater => h.apart later (List.mem_cons_of_mem file hlater), hnodup⟩
  · rw [Tree.node?_erase htop]
    split
    · rename_i heq
      rw [heq, h.bare_none file List.mem_cons_self]
    · rename_i hne
      exact h.same.node?_eq place fun hmem => (List.mem_cons.1 hmem).elim hne hplace
  · have hne : later.place ≠ file.place := fun heq =>
      hapart (heq ▸ List.mem_map_of_mem hlater)
    rw [Tree.node?_erase htop, if_neg hne]
    exact h.shown_file later (List.mem_cons_of_mem file hlater)

/-- One more temporary file comes. -/
theorem Shadows.concat (h : Shadows home paths staged bare shown) {place : Place}
    (hfree : shown.node? place = none) (hapart : ∀ path ∈ paths, ¬ Place.IsOn home place path)
    (write : Write) :
    Shadows home paths (staged ++ [⟨place, write⟩]) bare
      (shown.put place (.file write.text.toUTF8)) := by
  have htop : place ≠ [] := by
    rintro rfl
    rw [Tree.node?_top] at hfree
    exact nomatch hfree
  have hnew : place ∉ staged.map Staged.place := by
    intro hmem
    obtain ⟨file, hfile, rfl⟩ := List.mem_map.1 hmem
    rw [h.shown_file file hfile] at hfree
    exact nomatch hfree
  have hplaces : (staged ++ [Staged.mk place write]).map Staged.place =
      staged.map Staged.place ++ [place] := List.map_append
  refine ⟨h.home_eq, ⟨h.same.home_eq, fun other hother => ?_⟩, fun file hfile => ?_,
    fun file hfile => ?_, fun file hfile => ?_, ?_⟩
  · rw [hplaces, List.mem_append, List.mem_singleton, not_or] at hother
    rw [Tree.node?_put htop, if_neg hother.2, h.same.node?_eq other hother.1]
  · rw [Tree.node?_put htop]
    rcases List.mem_append.1 hfile with hfile | hfile
    · have hne : file.place ≠ place := fun heq => hnew (heq ▸ List.mem_map_of_mem hfile)
      rw [if_neg hne, h.shown_file file hfile]
    · obtain rfl := List.mem_singleton.1 hfile
      rw [if_pos rfl]
  · rcases List.mem_append.1 hfile with hfile | hfile
    · exact h.bare_none file hfile
    · obtain rfl := List.mem_singleton.1 hfile
      rw [← h.same.node?_eq place hnew, hfree]
  · rcases List.mem_append.1 hfile with hfile | hfile
    · exact h.apart file hfile
    · obtain rfl := List.mem_singleton.1 hfile
      exact hapart
  · rw [hplaces, List.nodup_append]
    refine ⟨h.nodup, by simp, ?_⟩
    rintro a ha b hb rfl
    exact hnew (List.mem_singleton.1 hb ▸ ha)

/-- Changes on the way to the paths, the same in both trees, touch no temporary file. -/
theorem Shadows.congr (h : Shadows home paths staged bare shown) {bare' shown' : Tree}
    (hhome : bare'.home = bare.home)
    (hsame : SameOff (· ∈ staged.map Staged.place) bare' shown')
    (hbare : ∀ file ∈ staged, bare'.node? file.place = bare.node? file.place)
    (hshown : ∀ file ∈ staged, shown'.node? file.place = shown.node? file.place) :
    Shadows home paths staged bare' shown' where
  home_eq := hhome.trans h.home_eq
  same := hsame
  shown_file file hfile := (hshown file hfile).trans (h.shown_file file hfile)
  bare_none file hfile := (hbare file hfile).trans (h.bare_none file hfile)
  apart := h.apart
  nodup := h.nodup

/-! ### The stages -/

/-- Once the temporary files are thrown away, nothing tells the trees apart. -/
theorem Shadows.discard (h : Shadows home paths staged bare shown) :
    SameOff (fun _ => False) bare (discard shown staged) := by
  induction staged generalizing shown with
  | nil => exact ⟨h.same.home_eq, fun place _ => h.same.node?_eq place (List.not_mem_nil)⟩
  | cons file staged ih => exact ih h.tail

/-- Directories are made alike beside temporary files. -/
theorem Shadows.makeDirectories (h : Shadows home paths staged bare shown)
    {list : List String} (hlist : ∀ path ∈ list, path ∈ paths) :
    (shown.makeDirectories list).2 = (bare.makeDirectories list).2 ∧
      Shadows home paths staged (bare.makeDirectories list).1 (shown.makeDirectories list).1 := by
  obtain ⟨hfault, hsame⟩ := h.same.makeDirectories fun path hpath => h.not_mem (hlist path hpath)
  have hkept : ∀ tree : Tree, tree.home = home → ∀ file ∈ staged,
      (tree.makeDirectories list).1.node? file.place = tree.node? file.place := by
    intro tree hhome file hfile
    rcases tree.node?_makeDirectories list file.place with hnode | ⟨path, hpath, -, hplace⟩
    · exact hnode
    · refine absurd (hplace ▸ Place.isOn_ofPath tree.home path) ?_
      rw [hhome]
      exact h.apart file hfile path (hlist path hpath)
  exact ⟨hfault, h.congr (bare.gainsDirectories_makeDirectories list).home_eq hsame
    (hkept bare h.home_eq) (hkept shown (h.same.home_eq.trans h.home_eq))⟩

/-- A commit in place makes directories and does nothing else in its first phase. -/
theorem makeDirectories_deeds (tree : Tree) (writes : List Write) :
    (makeDirectories tree writes).deeds = [] := by
  induction writes generalizing tree with
  | nil => rfl
  | cons write writes ih =>
    rw [makeDirectories]
    split
    · rename_i later _
      exact ih later
    · rfl

/-- **Texts are staged beside a tree whose directories are made.** If it is not a temporary file
that cannot be made, the stage fails as this phase does, and if it does not fail, every text is in a
temporary file. -/
theorem Shadows.stage (hapart : stager.KeepsApart home paths) {writes : List Write}
    (h : Shadows home paths staged bare shown)
    (hwrites : ∀ write ∈ writes, ∀ path ∈ write.directories.2, path ∈ paths) :
    (∃ path reason, (Commit.stage stager shown writes).2.2 = some (.fileNotStaged path reason)) ∨
      (Commit.stage stager shown writes).2.2 = (Commit.makeDirectories bare writes).refusal? ∧
      Shadows home paths (staged ++ (Commit.stage stager shown writes).2.1)
        (Commit.makeDirectories bare writes).tree (Commit.stage stager shown writes).1 ∧
      ((Commit.stage stager shown writes).2.2 = none →
        (Commit.stage stager shown writes).2.1.map Staged.write = writes) := by
  induction writes generalizing bare shown staged with
  | nil =>
    exact .inr ⟨rfl, by simpa [Commit.stage, Commit.makeDirectories] using h, fun _ => rfl⟩
  | cons write writes ih =>
    obtain ⟨hwrite, hlater⟩ := List.forall_mem_cons.1 hwrites
    obtain ⟨hfault, hmade⟩ := h.makeDirectories hwrite
    rw [Commit.stage, Commit.makeDirectories]
    rcases hbare : bare.makeDirectories write.directories.2 with ⟨bare', fault?⟩
    rcases hshown : shown.makeDirectories write.directories.2 with ⟨shown', fault?'⟩
    rw [hbare, hshown] at hfault hmade
    obtain rfl : fault?' = fault? := hfault
    cases fault?' with
    | some fault => exact .inr ⟨rfl, by simpa using hmade, by simp⟩
    | none =>
      cases hplace : stager.place? shown' write.directories.1 with
      | error reason => exact .inl ⟨write.path, reason, by simp only [hplace]⟩
      | ok place =>
        have hhome : shown'.home = home := hmade.same.home_eq.trans hmade.home_eq
        have hnext := hmade.concat (stager.node?_place hplace) (hapart hhome hplace) write
        simp only [hplace]
        rcases ih hnext hlater with hfails | ⟨hrefusal, hrest, hall⟩
        · exact .inl hfails
        · refine .inr ⟨hrefusal, ?_, fun hnone => ?_⟩
          · rwa [List.append_assoc, List.singleton_append] at hrest
          · rw [List.map_cons, hall hnone]

/-- A file comes to stand at a path alike beside temporary files. -/
theorem Shadows.placeFile (h : Shadows home paths staged bare shown) {path : String}
    (hpath : path ∈ paths) (content : ByteArray) :
    (∃ fault, bare.placeFile path content = .error fault ∧
        shown.placeFile path content = .error fault) ∨
      ∃ bare' shown', bare.placeFile path content = .ok bare' ∧
        shown.placeFile path content = .ok shown' ∧ Shadows home paths staged bare' shown' := by
  have hplaced := h.same.placeFile (h.not_mem hpath) content
  have hkept : ∀ tree later : Tree, tree.home = home → tree.placeFile path content = .ok later →
      later.home = tree.home ∧ ∀ file ∈ staged, later.node? file.place = tree.node? file.place := by
    intro tree later hhome hlater
    obtain ⟨place, hplace, rfl⟩ := placeFile_eq_ok_iff.1 hlater
    refine ⟨rfl, fun file hfile => ?_⟩
    rw [Tree.node?_put (Tree.ne_top_of_slot? hplace), if_neg]
    rintro rfl
    refine h.apart file hfile path hpath ?_
    rw [Tree.eq_ofPath_of_slot? hplace, hhome]
    exact Place.isOn_ofPath home path
  have hbare := fun later => hkept bare later h.home_eq
  have hshown := fun later => hkept shown later (h.same.home_eq.trans h.home_eq)
  generalize bare.placeFile path content = placed at hplaced hbare ⊢
  generalize shown.placeFile path content = placed' at hplaced hshown ⊢
  cases hplaced with
  | error fault => exact .inl ⟨fault, rfl, rfl⟩
  | ok hsame =>
    exact .inr ⟨_, _, rfl, rfl, h.congr (hbare _ rfl).1 hsame (hbare _ rfl).2 (hshown _ rfl).2⟩

/-- One more deed in front. -/
theorem Outcome.Agrees.after {outcome other : Outcome} (h : outcome.Agrees other) (deed : Deed) :
    (outcome.after deed).Agrees (other.after deed) :=
  ⟨h.tree, congrArg (deed :: ·) h.deeds, h.refusal⟩

/-- **Temporary files are moved as texts are put in their places.** -/
theorem Shadows.persist (h : Shadows home paths staged bare shown)
    (hpaths : ∀ file ∈ staged, file.write.path ∈ paths) :
    (placeFiles bare (staged.map Staged.write)).Agrees (Commit.persist shown staged) := by
  induction staged generalizing bare shown with
  | nil => exact ⟨h.discard, rfl, rfl⟩
  | cons file staged ih =>
    obtain ⟨hpath, hlater⟩ := List.forall_mem_cons.1 hpaths
    have hfile := h.shown_file file List.mem_cons_self
    have hpersist : file.persist shown =
        (file.discard shown).placeFile file.write.path file.write.text.toUTF8 := by
      rw [Staged.persist, Staged.discard, hfile]
    rw [List.map_cons, placeFiles, Commit.persist, hpersist]
    rcases h.tail.placeFile hpath file.write.text.toUTF8 with
      ⟨fault, hbare, hshown⟩ | ⟨bare', shown', hbare, hshown, hnext⟩
    · rw [hbare, hshown]
      exact ⟨h.discard, rfl, rfl⟩
    · rw [hbare, hshown]
      exact (ih hnext hlater).after _

/-- Files are deleted alike in trees that nothing tells apart. -/
theorem agrees_deleteFiles {tree other : Tree} (h : SameOff (fun _ => False) tree other)
    (paths : List String) : (deleteFiles tree paths).Agrees (deleteFiles other paths) := by
  induction paths generalizing tree other with
  | nil => exact ⟨h, rfl, rfl⟩
  | cons path paths ih =>
    have hremoved : AgreeOff (fun _ => False) (tree.removeFile path) (other.removeFile path) :=
      h.removeFile fun _ _ => id
    rw [deleteFiles, deleteFiles]
    generalize tree.removeFile path = removed at hremoved ⊢
    generalize other.removeFile path = removed' at hremoved ⊢
    cases hremoved with
    | error fault => exact ⟨h, rfl, rfl⟩
    | ok hlater => exact (ih hlater).after _

theorem Outcome.andThen_of_deeds_eq_nil {outcome : Outcome} (hrefusal : outcome.refusal? = none)
    (hdeeds : outcome.deeds = []) (next : Tree → Outcome) :
    outcome.andThen next = next outcome.tree := by
  simp only [andThen, hrefusal, hdeeds, List.nil_append]

/-- One phase after another. -/
theorem Outcome.Agrees.andThen {outcome other : Outcome} (h : outcome.Agrees other)
    {next next' : Tree → Outcome}
    (hnext : ∀ {tree tree'}, SameOff (fun _ => False) tree tree' →
      (next tree).Agrees (next' tree')) :
    (outcome.andThen next).Agrees (other.andThen next') := by
  obtain ⟨htree, hdeeds, hrefusal⟩ := h
  obtain ⟨hlater, hlater', hlater''⟩ := hnext htree
  unfold Outcome.andThen
  rw [hrefusal]
  split
  · exact ⟨hlater, by simp only [hdeeds, hlater'], hlater''⟩
  · exact ⟨htree, hdeeds, hrefusal⟩

theorem Plan.directory_mem_paths {plan : Plan} {write : Write} (hwrite : write ∈ plan.writes)
    {path : String} (hpath : path = write.path ∨ path ∈ write.directories.2) :
    path ∈ plan.paths :=
  List.mem_append_left _ (List.mem_flatMap.2 ⟨write, hwrite, List.mem_cons.2 hpath⟩)

/-- **A plan is carried out alike**, in place and by way of temporary files, if these can be
made. -/
theorem Plan.agrees_carryOutStaged (plan : Plan) (tree : Tree)
    (hapart : stager.KeepsApart tree.home plan.paths) :
    (∃ path reason, (stage stager tree plan.writes).2.2 = some (.fileNotStaged path reason)) ∨
      (plan.carryOut tree).Agrees (plan.carryOutStaged stager tree) := by
  have hwrites : ∀ write ∈ plan.writes, ∀ path ∈ write.directories.2, path ∈ plan.paths :=
    fun write hwrite path hpath => Plan.directory_mem_paths hwrite (.inr hpath)
  refine ((shadows_nil tree).stage hapart hwrites).imp_right ?_
  rintro ⟨hrefusal, hstaged, hall⟩
  unfold carryOut carryOutStaged
  rcases hstage : stage stager tree plan.writes with ⟨shown, staged, refusal?⟩
  rw [hstage] at hrefusal hstaged hall
  rw [List.nil_append] at hstaged
  cases refusal? with
  | some refusal =>
    have hmade : (makeDirectories tree plan.writes).refusal? = some refusal := hrefusal.symm
    simp only [Outcome.andThen, hmade]
    exact ⟨hstaged.discard, (makeDirectories_deeds tree plan.writes).symm, hmade.symm⟩
  | none =>
    have hpaths : ∀ file ∈ staged, file.write.path ∈ plan.paths := by
      intro file hfile
      have hwrite : file.write ∈ plan.writes := hall rfl ▸ List.mem_map_of_mem hfile
      exact Plan.directory_mem_paths hwrite (.inl rfl)
    have hmade : (makeDirectories tree plan.writes).refusal? = none := hrefusal.symm
    have hplaced := hstaged.persist hpaths
    rw [hall rfl] at hplaced
    rw [Outcome.andThen_of_deeds_eq_nil hmade (makeDirectories_deeds tree plan.writes)]
    exact hplaced.andThen fun htree => agrees_deleteFiles htree plan.deletions

end Commit

section

open LinePatch.Tree (SameFiles)

variable {stager : Commit.Stager} {root : String} {changes : Changes} {tree : Tree}

/-- **Staging does not show.** If temporary files have names of their own, a staged commit is
refused as a commit in place is, it does the same to the same files, and it leaves the same tree,
unless one of the temporary files cannot be made. -/
theorem stagedCommit_agrees
    (hapart : stager.KeepsApart tree.home (Commit.Plan.ofChanges root changes).paths) :
    stager.Fails root changes tree ∨
      (commit root changes tree).Agrees (stagedCommit stager root changes tree) := by
  unfold commit stagedCommit
  cases hplan : Commit.plan tree root changes with
  | error refusal => exact .inr ⟨.refl tree, rfl, rfl⟩
  | ok plan =>
    obtain ⟨rfl, -⟩ := Commit.plan_eq_ok hplan
    refine (Commit.Plan.agrees_carryOutStaged _ tree hapart).imp_left ?_
    rintro ⟨path, reason, hfails⟩
    exact ⟨_, path, reason, hplan, hfails⟩

/-- A commit for which a temporary file cannot be made is refused, and leaves all files as they
were. -/
theorem stagedCommit_of_fails (h : stager.Fails root changes tree) :
    (stagedCommit stager root changes tree).refusal?.isSome ∧
      SameFiles tree (stagedCommit stager root changes tree).tree := by
  obtain ⟨plan, path, reason, hplan, hfails⟩ := h
  have hstaged : Tree.ChangesOnly (fun _ => False) (fun _ => True) tree
      (Commit.discard (Commit.stage stager tree plan.writes).1
        (Commit.stage stager tree plan.writes).2.1) :=
    Commit.changesOnly_stage stager fun _ _ _ _ => trivial
  simp only [stagedCommit, hplan, Commit.Plan.carryOutStaged]
  rcases hstage : Commit.stage stager tree plan.writes with ⟨later, staged, refusal?⟩
  rw [hstage] at hfails hstaged
  obtain rfl : refusal? = some (.fileNotStaged path reason) := hfails
  exact ⟨rfl, fun place => Classical.byContradiction fun hne => hstaged.file place hne⟩

/-- A commit does by any method what it does in place, or it fails on account of the method. -/
theorem Commit.Method.failsToStage_or_agrees (method : Commit.Method)
    (hapart : method.KeepsApart tree.home (Commit.Plan.ofChanges root changes).paths) :
    method.FailsToStage root changes tree ∨
      (LinePatch.commit root changes tree).Agrees (method.commit root changes tree) := by
  cases method with
  | inPlace => exact .inr ⟨.refl _, rfl, rfl⟩
  | staged stager => exact stagedCommit_agrees hapart

/-- A commit that fails on account of its method is refused, and leaves all files as they were. -/
theorem Commit.Method.commit_of_failsToStage {method : Commit.Method}
    (h : method.FailsToStage root changes tree) :
    (method.commit root changes tree).refusal?.isSome ∧
      SameFiles tree (method.commit root changes tree).tree := by
  cases method with
  | inPlace => exact h.elim
  | staged stager => exact stagedCommit_of_fails h

end

end LinePatch
