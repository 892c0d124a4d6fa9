import LinePatch.Command.Commit
import LinePatch.Proofs.Path
import LinePatch.Proofs.Tree.Way

/-!
# The phases of a commit

What each phase of a commit does to the files of the tree, whether or not it comes to its end.
Making directories touches no file. Putting texts in their places goes on until one of them has no
place, and deleting files until one of them is gone already. The places do not change meanwhile:
they are those of the tree whose directories have been made.

## Main definitions

* `Commit.landed`: the bytes that written files leave at a place.
* `Commit.Plan.prepared`: the tree once the directories have been made.

## Main results

* `Commit.placeFiles_of_slots`, `Commit.placeFiles_of_no_slot`: the files after the second phase.
* `Commit.deleteFiles_refusal?_eq_none_iff`: when the third phase comes to its end.
* `Commit.deletions_of_plan`: every planned deletion finds its file.
-/

namespace LinePatch.Commit

open LinePatch.Tree (GainsDirectories)

variable {tree : Tree} {place : Place}

/-- The bytes that written files leave at a place of the tree, if one of them lands there. The last
one counts. -/
def landed (tree : Tree) : List Write → Place → Option ByteArray
  | [], _ => none
  | write :: writes, place =>
    (landed tree writes place).or
      (if tree.slot? write.path = some place then some write.text.toUTF8 else none)

/-- The tree once the directories of all written files have been made, as far as that goes. -/
def Plan.prepared (plan : Plan) (tree : Tree) : Tree :=
  (makeDirectories tree plan.writes).tree

/-! ### Making directories -/

theorem gainsDirectories_makeDirectories (tree : Tree) (writes : List Write) :
    GainsDirectories tree (makeDirectories tree writes).tree := by
  induction writes generalizing tree with
  | nil => exact .refl tree
  | cons write writes ih =>
    have hmade := tree.gainsDirectories_makeDirectories write.directories.2
    rw [makeDirectories]
    split
    · rename_i later hlater
      rw [hlater] at hmade
      exact hmade.trans (ih later)
    · rename_i later fault hlater
      rw [hlater] at hmade
      exact hmade

/-! ### Putting files in their places -/

theorem landed_congr {before after : Tree} (h : ∀ path, after.slot? path = before.slot? path)
    (writes : List Write) (place : Place) :
    landed after writes place = landed before writes place := by
  induction writes with
  | nil => rfl
  | cons write writes ih => rw [landed, landed, ih, h]

/-- If every text has its place, all of them land there, and the places stay as they are. -/
theorem placeFiles_of_slots {writes : List Write}
    (h : ∀ write ∈ writes, (tree.slot? write.path).isSome) :
    (placeFiles tree writes).refusal? = none ∧
      (∀ path, (placeFiles tree writes).tree.slot? path = tree.slot? path) ∧
      ∀ place, (placeFiles tree writes).tree.fileAt? place =
        (landed tree writes place).or (tree.fileAt? place) := by
  induction writes generalizing tree with
  | nil => exact ⟨rfl, fun _ => rfl, fun _ => rfl⟩
  | cons write writes ih =>
    obtain ⟨first, hfirst⟩ := Option.isSome_iff_exists.1 (h write List.mem_cons_self)
    have htop := Tree.ne_top_of_slot? hfirst
    obtain ⟨hkeeps, hkeeps'⟩ := Tree.keepsDirectories_put_file htop
      (Tree.node?_ne_directory_of_slot? hfirst) write.text.toUTF8
    have hslots := Tree.slot?_congr hkeeps hkeeps'
    have hwrites : ∀ later ∈ writes,
        ((tree.put first (.file write.text.toUTF8)).slot? later.path).isSome := by
      intro later hlater
      rw [hslots]
      exact h later (List.mem_cons_of_mem write hlater)
    obtain ⟨hrefusal, hplaces, hfiles⟩ := ih hwrites
    simp only [placeFiles, Tree.placeFile_of_slot? hfirst, Outcome.after]
    refine ⟨hrefusal, fun path => (hplaces path).trans (hslots path), fun place => ?_⟩
    rw [hfiles, landed_congr hslots, landed, hfirst, Tree.fileAt?_put_file htop, Option.or_assoc]
    congr 1
    by_cases hplace : place = first
    · rw [if_pos hplace, if_pos (congrArg some hplace.symm), Option.some_or]
    · rw [if_neg hplace, if_neg (fun heq => hplace (Option.some.inj heq).symm), Option.none_or]

theorem Outcome.andThen_after (deed : Deed) (outcome : Outcome) (next : Tree → Outcome) :
    (outcome.after deed).andThen next = (outcome.andThen next).after deed := by
  rcases outcome with ⟨later, deeds, _ | refusal⟩ <;> rfl

theorem placeFiles_append (tree : Tree) (before after : List Write) :
    placeFiles tree (before ++ after) =
      (placeFiles tree before).andThen fun tree => placeFiles tree after := by
  induction before generalizing tree with
  | nil => simp [placeFiles, Outcome.andThen]
  | cons write before ih =>
    rw [List.cons_append, placeFiles, placeFiles]
    split
    · rw [ih, Outcome.andThen_after]
    · rfl

/-- The first text without a place ends the phase, and the ones before it have landed. -/
theorem placeFiles_of_no_slot {before : List Write} {write : Write}
    (hbefore : ∀ earlier ∈ before, (tree.slot? earlier.path).isSome) (after : List Write)
    (hwrite : tree.slot? write.path = none) :
    (placeFiles tree (before ++ write :: after)).refusal?.isSome ∧
      ∀ place, (placeFiles tree (before ++ write :: after)).tree.fileAt? place =
        (landed tree before place).or (tree.fileAt? place) := by
  obtain ⟨hrefusal, hplaces, hfiles⟩ := placeFiles_of_slots hbefore
  obtain ⟨fault, hfault⟩ :=
    Tree.placeFile_of_slot?_eq_none ((hplaces write.path).trans hwrite) write.text.toUTF8
  simp only [placeFiles_append, Outcome.andThen, hrefusal, placeFiles, hfault]
  exact ⟨rfl, hfiles⟩

/-- All texts are put in their places exactly if each of them has one. -/
theorem placeFiles_refusal?_eq_none_iff {writes : List Write} :
    (placeFiles tree writes).refusal? = none ↔
      ∀ write ∈ writes, (tree.slot? write.path).isSome := by
  refine ⟨fun h => ?_, fun h => (placeFiles_of_slots h).1⟩
  cases hfind : writes.find? fun write => (tree.slot? write.path).isNone with
  | none =>
    intro write hwrite
    simpa [Option.isSome_iff_ne_none] using List.find?_eq_none.1 hfind write hwrite
  | some write =>
    obtain ⟨hnone, before, after, rfl, hsome⟩ := List.find?_eq_some_iff_append.1 hfind
    have hbefore : ∀ earlier ∈ before, (tree.slot? earlier.path).isSome := by
      intro earlier hearlier
      simpa [Option.isSome_iff_ne_none] using hsome earlier hearlier
    have hrefusal := (placeFiles_of_no_slot hbefore after (Option.isNone_iff_eq_none.1 hnone)).1
    rw [h] at hrefusal
    exact nomatch hrefusal

/-- Of the texts that are written to one place the last one stays. -/
theorem landed_eq_find? {writes : List Write}
    (h : ∀ write ∈ writes, (tree.slot? write.path).isSome) (place : Place) :
    landed tree writes place =
      (writes.reverse.find? fun write => Place.ofPath tree.home write.path = place).map
        (·.text.toUTF8) := by
  induction writes with
  | nil => rfl
  | cons write writes ih =>
    obtain ⟨first, hfirst⟩ := Option.isSome_iff_exists.1 (h write List.mem_cons_self)
    have hplace := Tree.eq_ofPath_of_slot? hfirst
    rw [landed, ih fun later hlater => h later (List.mem_cons_of_mem write hlater),
      List.reverse_cons, List.find?_append, hfirst, Option.map_or]
    congr 1
    by_cases hhere : first = place
    · simp [hhere, ← hplace]
    · simp [hhere, ← hplace]

/-! ### Deleting files -/

/-- Deleting files makes no file. -/
theorem fileAt?_of_deleteFiles {paths : List String} {content : ByteArray}
    (h : (deleteFiles tree paths).tree.fileAt? place = some content) :
    tree.fileAt? place = some content := by
  induction paths generalizing tree with
  | nil => exact h
  | cons path paths ih =>
    rw [deleteFiles] at h
    split at h
    · rename_i later hlater
      obtain ⟨gone, hgone, -, rfl⟩ := Tree.removeFile_eq_ok_iff.1 hlater
      have hrest := ih h
      rw [Tree.fileAt?_erase (Tree.ne_top_of_slot? hgone)] at hrest
      split at hrest
      · exact nomatch hrest
      · exact hrest
    · exact h

/-- The first file is deleted, whatever comes after it. -/
theorem fileAt?_deleteFiles_cons {path : String} {paths : List String}
    (hplace : tree.slot? path = some place) (hfile : (tree.fileAt? place).isSome) :
    (deleteFiles tree (path :: paths)).tree.fileAt? place = none := by
  have hremoved := Tree.removeFile_eq_ok_iff.2 ⟨place, hplace, hfile, rfl⟩
  rw [Option.eq_none_iff_forall_ne_some]
  intro content hcontent
  simp only [deleteFiles, hremoved] at hcontent
  have hrest := fileAt?_of_deleteFiles hcontent
  rw [Tree.fileAt?_erase (Tree.ne_top_of_slot? hplace), if_pos rfl] at hrest
  exact nomatch hrest

/-- The files of a tree without one of them. -/
theorem isSome_fileAt?_erase (htop : place ≠ []) (other : Place) :
    ((tree.erase place).fileAt? other).isSome ↔ other ≠ place ∧ (tree.fileAt? other).isSome := by
  rw [Tree.fileAt?_erase htop]
  by_cases hother : other = place
  · simp [hother]
  · simp [hother]

/-- All files can be deleted exactly if each of them is there and no two of them are the same. -/
theorem deleteFiles_refusal?_eq_none_iff {paths : List String} :
    (deleteFiles tree paths).refusal? = none ↔
      (∀ path ∈ paths, ∃ place, tree.slot? path = some place ∧ (tree.fileAt? place).isSome) ∧
        (paths.map tree.slot?).Nodup := by
  induction paths generalizing tree with
  | nil => simp [deleteFiles]
  | cons path paths ih =>
    rw [deleteFiles]
    split
    · rename_i later hlater
      obtain ⟨gone, hgone, hthere, rfl⟩ := Tree.removeFile_eq_ok_iff.1 hlater
      have htop := Tree.ne_top_of_slot? hgone
      obtain ⟨hkeeps, hkeeps'⟩ :=
        Tree.keepsDirectories_erase htop (Tree.node?_ne_directory_of_slot? hgone)
      have hslots : (tree.erase gone).slot? = tree.slot? :=
        funext (Tree.slot?_congr hkeeps hkeeps')
      change (deleteFiles (tree.erase gone) paths).refusal? = none ↔ _
      simp only [ih, hslots, isSome_fileAt?_erase htop, List.forall_mem_cons, List.map_cons,
        List.nodup_cons, List.mem_map, not_exists, not_and]
      constructor
      · rintro ⟨hrest, hnodup⟩
        refine ⟨⟨⟨gone, hgone, hthere⟩, fun other hother => ?_⟩, fun other hother heq => ?_, hnodup⟩
        · obtain ⟨place, hplace, -, hfile⟩ := hrest other hother
          exact ⟨place, hplace, hfile⟩
        · obtain ⟨place, hplace, hne, -⟩ := hrest other hother
          rw [hplace, hgone] at heq
          exact hne (Option.some.inj heq)
      · rintro ⟨⟨-, hrest⟩, hfirst, hnodup⟩
        refine ⟨fun other hother => ?_, hnodup⟩
        obtain ⟨place, hplace, hfile⟩ := hrest other hother
        refine ⟨place, hplace, ?_, hfile⟩
        rintro rfl
        exact hfirst other hother (hplace.trans hgone.symm)
    · rename_i fault hfault
      simp only [reduceCtorEq, false_iff, not_and]
      rintro hall -
      obtain ⟨place, hplace, hfile⟩ := hall path List.mem_cons_self
      have hremoved := Tree.removeFile_eq_ok_iff.2 ⟨place, hplace, hfile, rfl⟩
      rw [hfault] at hremoved
      exact nomatch hremoved

/-- Once all files have been deleted, nothing stands at their places, and the rest is as it was. -/
theorem deleteFiles_of_refusal?_eq_none {paths : List String}
    (h : (deleteFiles tree paths).refusal? = none) :
    (deleteFiles tree paths).tree.slot? = tree.slot? ∧
      ∀ place, (deleteFiles tree paths).tree.fileAt? place =
        if some place ∈ paths.map tree.slot? then none else tree.fileAt? place := by
  induction paths generalizing tree with
  | nil => exact ⟨rfl, fun _ => rfl⟩
  | cons path paths ih =>
    rw [deleteFiles] at h ⊢
    split at h
    · rename_i later hlater
      obtain ⟨gone, hgone, -, rfl⟩ := Tree.removeFile_eq_ok_iff.1 hlater
      have htop := Tree.ne_top_of_slot? hgone
      obtain ⟨hkeeps, hkeeps'⟩ :=
        Tree.keepsDirectories_erase htop (Tree.node?_ne_directory_of_slot? hgone)
      have hslots : (tree.erase gone).slot? = tree.slot? :=
        funext (Tree.slot?_congr hkeeps hkeeps')
      obtain ⟨hrest, hfiles⟩ := ih h
      rw [hslots] at hrest hfiles
      refine ⟨hrest, fun place => (hfiles place).trans ?_⟩
      simp only [Tree.fileAt?_erase htop, List.map_cons, List.mem_cons, hgone, Option.some.injEq]
      by_cases hplace : place = gone
      · simp [hplace]
      · simp [hplace]
    · exact nomatch h

/-! ### Planning -/

/-- What a list of checks returns has passed one of them. -/
theorem exists_of_mem_mapM {ε α β : Type} {f : α → Except ε β} {list : List α} {results : List β}
    (h : list.mapM f = .ok results) {result : β} (hresult : result ∈ results) :
    ∃ value ∈ list, f value = .ok result := by
  induction list generalizing results with
  | nil =>
    obtain rfl : [] = results := by simpa [pure, Except.pure] using h
    exact nomatch hresult
  | cons value list ih =>
    rw [List.mapM_cons] at h
    cases hfirst : f value with
    | error error => simp [hfirst, bind, Except.bind] at h
    | ok first =>
      cases hrest : list.mapM f with
      | error error => simp [hfirst, hrest, bind, Except.bind] at h
      | ok rest =>
        obtain rfl : first :: rest = results := by
          simpa [hfirst, hrest, bind, Except.bind, pure, Except.pure] using h
        rcases List.mem_cons.1 hresult with rfl | hlater
        · exact ⟨value, List.mem_cons_self, hfirst⟩
        · obtain ⟨other, hother, hvalue⟩ := ih hrest hlater
          exact ⟨other, List.mem_cons_of_mem value hother, hvalue⟩

theorem within?_of_target {root path full : String} (h : target root path = .ok full) :
    Path.within? root path = some full := by
  unfold target at h
  split at h
  · rename_i hwithin
    rw [hwithin, Except.ok.inj h]
  · exact nomatch h

/-- A file that is there stands at the place for its path. -/
theorem exists_slot?_of_isFile {path : String} (h : tree.isFile path = true)
    (hlast : (Path.names path).getLast? ≠ some "..") :
    ∃ place, tree.slot? path = some place ∧ (tree.fileAt? place).isSome := by
  unfold Tree.isFile Tree.nodeAt? at h
  cases hfind : tree.find path with
  | error fault => simp [hfind] at h
  | ok place =>
    have hfile : (tree.fileAt? place).isSome = true := by
      rcases hnode : tree.node? place with _ | _ | content <;>
        simp_all [Tree.fileAt?]
    exact ⟨place, Tree.slot?_of_find hfind hfile hlast, hfile⟩

/-- Every planned deletion leads to a file. -/
theorem deletions_of_plan {root : String} {changes : Changes} {plan : Plan}
    (h : Commit.plan tree root changes = .ok plan) {path : String} (hpath : path ∈ plan.deletions) :
    ∃ place, tree.slot? path = some place ∧ (tree.fileAt? place).isSome := by
  unfold Commit.plan at h
  cases hwrites : (changes.updated.entries ++ changes.added.entries).mapM (planWrite tree root) with
  | error refusal => simp [hwrites, bind, Except.bind] at h
  | ok writes =>
    cases hdeletions : changes.deleted.paths.mapM (planDeletion tree root) with
    | error refusal => simp [hwrites, hdeletions, bind, Except.bind] at h
    | ok deletions =>
      obtain rfl : ⟨writes, deletions⟩ = plan := by
        simpa [hwrites, hdeletions, bind, Except.bind, pure, Except.pure] using h
      obtain ⟨name, -, hname⟩ := exists_of_mem_mapM hdeletions hpath
      unfold planDeletion at hname
      cases htarget : target root name with
      | error refusal => simp [htarget, bind, Except.bind] at hname
      | ok full =>
        simp only [htarget, bind, Except.bind] at hname
        split at hname
        · rename_i hfile
          obtain rfl := Except.ok.inj hname
          exact exists_slot?_of_isFile hfile
            (Path.getLast?_names_of_within? (within?_of_target htarget))
        · exact nomatch hname

/-- What a list of checks returns, if each of them returns what a function says. -/
theorem mapM_eq_ok_of_forall {ε α β : Type} {f : α → Except ε β} {g : α → β}
    (hg : ∀ value result, f value = .ok result → g value = result) {list : List α}
    {results : List β} (h : list.mapM f = .ok results) :
    list.map g = results ∧ ∀ value ∈ list, f value = .ok (g value) := by
  induction list generalizing results with
  | nil =>
    obtain rfl : [] = results := by simpa [pure, Except.pure] using h
    simp
  | cons value list ih =>
    rw [List.mapM_cons] at h
    cases hfirst : f value with
    | error error => simp [hfirst, bind, Except.bind] at h
    | ok first =>
      cases hrest : list.mapM f with
      | error error => simp [hfirst, hrest, bind, Except.bind] at h
      | ok rest =>
        obtain rfl : first :: rest = results := by
          simpa [hfirst, hrest, bind, Except.bind, pure, Except.pure] using h
        obtain ⟨hmap, hall⟩ := ih hrest
        have hvalue := hg value first hfirst
        refine ⟨by rw [List.map_cons, hvalue, hmap], ?_⟩
        rw [List.forall_mem_cons, hvalue]
        exact ⟨hfirst, hall⟩

/-- The write of an entry. -/
def Write.ofEntry (root : String) (entry : String × String) : Write :=
  ⟨Path.join root entry.1, entry.2⟩

/-- What is to be done for changes, if all checks succeed. -/
def Plan.ofChanges (root : String) (changes : Changes) : Plan where
  writes := (changes.updated.entries ++ changes.added.entries).map (Write.ofEntry root)
  deletions := changes.deleted.paths.map (Path.join root)

theorem isConfined_of_target {root path full : String} (h : target root path = .ok full) :
    Path.isConfined path = true ∧ Path.join root path = full :=
  Path.within?_eq_some_iff.1 (within?_of_target h)

theorem isConfined_of_planWrite {root : String} {entry : String × String} {write : Write}
    (h : planWrite tree root entry = .ok write) :
    Path.isConfined entry.1 = true ∧ Write.ofEntry root entry = write := by
  unfold planWrite at h
  cases htarget : target root entry.1 with
  | error refusal => simp [htarget, bind, Except.bind] at h
  | ok full =>
    cases hcheck : checkWrite tree full with
    | error refusal => simp [htarget, hcheck, bind, Except.bind] at h
    | ok _ =>
      obtain rfl : ⟨full, entry.2⟩ = write := by
        simpa [htarget, hcheck, bind, Except.bind, pure, Except.pure] using h
      obtain ⟨hconfined, rfl⟩ := isConfined_of_target htarget
      exact ⟨hconfined, rfl⟩

theorem isConfined_of_planDeletion {root path full : String}
    (h : planDeletion tree root path = .ok full) :
    Path.isConfined path = true ∧ Path.join root path = full := by
  unfold planDeletion at h
  cases htarget : target root path with
  | error refusal => simp [htarget, bind, Except.bind] at h
  | ok other =>
    simp only [htarget, bind, Except.bind] at h
    split at h
    · obtain rfl := Except.ok.inj h
      exact isConfined_of_target htarget
    · exact nomatch h

/-- **A plan** has a write for each text and a deletion for each deleted file, and none of them
leads out of the directory. -/
theorem plan_eq_ok {root : String} {changes : Changes} {plan : Plan}
    (h : Commit.plan tree root changes = .ok plan) :
    Plan.ofChanges root changes = plan ∧
      (∀ entry ∈ changes.updated.entries ++ changes.added.entries,
        Path.isConfined entry.1 = true) ∧
      ∀ path ∈ changes.deleted.paths, Path.isConfined path = true := by
  unfold Commit.plan at h
  cases hwrites : (changes.updated.entries ++ changes.added.entries).mapM (planWrite tree root) with
  | error refusal => simp [hwrites, bind, Except.bind] at h
  | ok writes =>
    cases hdeletions : changes.deleted.paths.mapM (planDeletion tree root) with
    | error refusal => simp [hwrites, hdeletions, bind, Except.bind] at h
    | ok deletions =>
      obtain rfl : ⟨writes, deletions⟩ = plan := by
        simpa [hwrites, hdeletions, bind, Except.bind, pure, Except.pure] using h
      obtain ⟨hentries, hwritten⟩ := mapM_eq_ok_of_forall
        (fun entry write h => (isConfined_of_planWrite h).2) hwrites
      obtain ⟨hpaths, hdeleted⟩ := mapM_eq_ok_of_forall
        (fun path full h => (isConfined_of_planDeletion h).2) hdeletions
      exact ⟨by rw [Plan.ofChanges, hentries, hpaths],
        fun entry hentry => (isConfined_of_planWrite (hwritten entry hentry)).1,
        fun path hpath => (isConfined_of_planDeletion (hdeleted path hpath)).1⟩

end LinePatch.Commit
