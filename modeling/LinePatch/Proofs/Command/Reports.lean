import LinePatch.Proofs.Apply.Actions
import LinePatch.Proofs.Command.Atomicity
import LinePatch.Proofs.Command.Execute

/-!
# What a successful command reports

A command that succeeds reports the text of every file that it has written and the path of every
file that it has deleted. The report goes by paths and the tree by places, and several paths may
name one place. Of the texts that are written to one place the last one stays, and nothing stays
where a file is deleted. So a report stands in the tree as long as its paths name different places.

## Main definitions

* `Commit.Plan.left?`: the text that a plan leaves at a place.
* `Changes.Stands`: changes that are found in a tree as they are reported.

## Main results

* `Commit.Plan.nodeAt?_carryOut`, `nodeAt?_commit`: what a commit leaves at a path.
* `nodeAt?_method_commit`: the same for a commit by any method.
* `stands_execute_iff`: when the report of a successful command stands.
-/

namespace LinePatch

namespace Commit.Plan

variable {tree : Tree} {plan : Plan}

/-- A commit that comes to its end has come to the end of each phase. -/
theorem refusal?_eq_none_of_carryOut (h : (plan.carryOut tree).refusal? = none) :
    (makeDirectories tree plan.writes).refusal? = none ∧
      (∀ write ∈ plan.writes, ((plan.prepared tree).slot? write.path).isSome) ∧
      (deleteFiles (placeFiles (plan.prepared tree) plan.writes).tree
        plan.deletions).refusal? = none := by
  cases hprepared : (makeDirectories tree plan.writes).refusal? with
  | some refusal => simp [carryOut, Outcome.andThen, hprepared] at h
  | none =>
    cases hplaced : (placeFiles (plan.prepared tree) plan.writes).refusal? with
    | some refusal =>
      rw [prepared] at hplaced
      simp [carryOut, Outcome.andThen, hprepared, hplaced] at h
    | none =>
      have hwrites := placeFiles_refusal?_eq_none_iff.1 hplaced
      exact ⟨rfl, hwrites, (carryOut_of_slots hprepared hwrites).1 ▸ h⟩

theorem home_prepared (plan : Plan) (tree : Tree) : (plan.prepared tree).home = tree.home :=
  (gainsDirectories_makeDirectories tree plan.writes).home_eq

/-- The text that a plan leaves at a place: the last one that is written there, unless a file is
deleted there. -/
def left? (home : Place) (plan : Plan) (place : Place) : Option String :=
  if ∃ path ∈ plan.deletions, Place.ofPath home path = place then none
  else
    (plan.writes.reverse.find? fun write => Place.ofPath home write.path = place).map Write.text

/-- Of the texts that are written to the place of a written path there is a last one. -/
theorem exists_last_write (home : Place) {path : String} (h : path ∈ plan.writes.map Write.path) :
    ∃ last ∈ plan.writes, Place.ofPath home last.path = Place.ofPath home path ∧
      (plan.writes.reverse.find? fun write =>
        Place.ofPath home write.path = Place.ofPath home path) = some last := by
  obtain ⟨write, hwrite, rfl⟩ := List.mem_map.1 h
  have hsome : (plan.writes.reverse.find? fun other =>
      Place.ofPath home other.path = Place.ofPath home write.path).isSome :=
    List.find?_isSome.2 ⟨write, List.mem_reverse.2 hwrite, decide_eq_true rfl⟩
  obtain ⟨last, hlast⟩ := Option.isSome_iff_exists.1 hsome
  have hsame := List.find?_some hlast
  exact ⟨last, List.mem_reverse.1 (List.mem_of_find?_eq_some hlast), of_decide_eq_true hsame, hlast⟩

/-- Once the directories are made, the paths of a plan that comes to its end have their places. -/
theorem slot?_prepared_of_carryOut
    (hdeletions : ∀ path ∈ plan.deletions,
      ∃ place, tree.slot? path = some place ∧ (tree.fileAt? place).isSome)
    (hwrites : ∀ write ∈ plan.writes, ((plan.prepared tree).slot? write.path).isSome)
    {path : String} (hpath : path ∈ plan.writes.map Write.path ++ plan.deletions) :
    (plan.prepared tree).slot? path = some (Place.ofPath tree.home path) := by
  rcases List.mem_append.1 hpath with hwritten | hdeletion
  · obtain ⟨write, hwrite, rfl⟩ := List.mem_map.1 hwritten
    obtain ⟨place, hplace⟩ := Option.isSome_iff_exists.1 (hwrites write hwrite)
    rw [hplace, Tree.eq_ofPath_of_slot? hplace, home_prepared]
  · obtain ⟨place, hplace, hfile⟩ := hdeletions path hdeletion
    rw [slot?_prepared hplace hfile, Tree.eq_ofPath_of_slot? hplace]

/-- **What a commit that comes to its end leaves** at the paths of its plan. -/
theorem nodeAt?_carryOut
    (hdeletions : ∀ path ∈ plan.deletions,
      ∃ place, tree.slot? path = some place ∧ (tree.fileAt? place).isSome)
    (h : (plan.carryOut tree).refusal? = none) {path : String}
    (hpath : path ∈ plan.writes.map Write.path ++ plan.deletions) :
    (plan.carryOut tree).tree.nodeAt? path =
      (plan.left? tree.home (Place.ofPath tree.home path)).map (.file ·.toUTF8) := by
  obtain ⟨hprepared, hwrites, hdeleted⟩ := refusal?_eq_none_of_carryOut h
  have hslot : ∀ other ∈ plan.writes.map Write.path ++ plan.deletions,
      (plan.prepared tree).slot? other = some (Place.ofPath tree.home other) :=
    fun other hother => slot?_prepared_of_carryOut hdeletions hwrites hother
  obtain ⟨-, hslots, hfiles⟩ := placeFiles_of_slots hwrites
  obtain ⟨hslots', hfiles'⟩ := deleteFiles_of_refusal?_eq_none hdeleted
  rw [funext hslots] at hslots' hfiles'
  have hmem : some (Place.ofPath tree.home path) ∈
        plan.deletions.map (plan.prepared tree).slot? ↔
      ∃ other ∈ plan.deletions, Place.ofPath tree.home other = Place.ofPath tree.home path := by
    rw [List.map_congr_left fun other hother => hslot other (List.mem_append_right _ hother),
      List.mem_map]
    simp only [Option.some.injEq]
  have hplace := (congrFun hslots' path).trans (hslot path hpath)
  rw [(carryOut_of_slots hprepared hwrites).2, Tree.nodeAt?_of_slot? hplace,
    Tree.node?_of_slot? hplace, hfiles', hfiles, left?, landed_eq_find? hwrites, home_prepared]
  by_cases hhere :
      ∃ other ∈ plan.deletions, Place.ofPath tree.home other = Place.ofPath tree.home path
  · rw [if_pos hhere, if_pos (hmem.2 hhere)]
    rfl
  · rw [if_neg hhere, if_neg fun hin => hhere (hmem.1 hin)]
    have hwritten : path ∈ plan.writes.map Write.path :=
      (List.mem_append.1 hpath).resolve_right fun hdeletion => hhere ⟨path, hdeletion, rfl⟩
    obtain ⟨last, -, -, hlast⟩ := exists_last_write tree.home hwritten
    rw [hlast]
    rfl

end Commit.Plan

/-! ### Reports -/

/-- Every reported text is that of the file at its path, unless the file is reported as deleted, and
nothing is at the path of a file that is reported as deleted. -/
structure Changes.Stands (root : String) (changes : Changes) (tree : Tree) : Prop where
  written : ∀ entry ∈ changes.updated.entries ++ changes.added.entries,
    entry.1 ∉ changes.deleted.paths →
    tree.nodeAt? (Path.join root entry.1) = some (.file entry.2.toUTF8)
  deleted : ∀ path ∈ changes.deleted.paths, tree.nodeAt? (Path.join root path) = none

/-- Changes that are found in one tree are found in another one where the paths lead to the same. -/
theorem Changes.Stands.of_nodeAt?_eq {root : String} {changes : Changes} {tree other : Tree}
    (h : changes.Stands root tree) (hnode : ∀ path, other.nodeAt? path = tree.nodeAt? path) :
    changes.Stands root other where
  written entry hentry hdeleted := (hnode _).trans (h.written entry hentry hdeleted)
  deleted path hpath := (hnode _).trans (h.deleted path hpath)

/-- The text that changes leave at the place of a path. -/
def Changes.left? (home : Place) (root : String) (changes : Changes) (path : String) :
    Option String :=
  (Commit.Plan.ofChanges root changes).left? home (Place.ofPath home (Path.join root path))

variable {tree : Tree} {root : String} {changes : Changes}

theorem Changes.left?_of_mem_deleted {home : Place} {path : String}
    (h : path ∈ changes.deleted.paths) : changes.left? home root path = none :=
  if_pos ⟨Path.join root path, List.mem_map_of_mem h, rfl⟩

/-- **What a commit that comes to its end leaves** at the paths of its changes. -/
theorem nodeAt?_commit (h : (commit root changes tree).refusal? = none) {path : String}
    (hpath : path ∈ changes.updated.paths ∨ path ∈ changes.added.paths ∨
      path ∈ changes.deleted.paths) :
    (commit root changes tree).tree.nodeAt? (Path.join root path) =
      (changes.left? tree.home root path).map (.file ·.toUTF8) := by
  unfold commit at h ⊢
  cases hplan : Commit.plan tree root changes with
  | error refusal => simp [hplan] at h
  | ok plan =>
    simp only [hplan] at h
    obtain ⟨rfl, -⟩ := Commit.plan_eq_ok hplan
    refine Commit.Plan.nodeAt?_carryOut
      (fun other hother => Commit.deletions_of_plan hplan hother) h ?_
    simp only [Commit.Plan.ofChanges, List.map_append, List.mem_append, List.map_map]
    rcases hpath with hpath | hpath | hpath
    · obtain ⟨entry, hentry, rfl⟩ := List.mem_map.1 hpath
      exact .inl (.inl (List.mem_map.2 ⟨entry, hentry, rfl⟩))
    · obtain ⟨entry, hentry, rfl⟩ := List.mem_map.1 hpath
      exact .inl (.inr (List.mem_map.2 ⟨entry, hentry, rfl⟩))
    · exact .inr (List.mem_map_of_mem hpath)

/-- A report stands after a commit exactly if each of its texts is the one that is left. -/
theorem stands_commit_iff (h : (commit root changes tree).refusal? = none) :
    changes.Stands root (commit root changes tree).tree ↔
      ∀ entry ∈ changes.updated.entries ++ changes.added.entries,
        entry.1 ∉ changes.deleted.paths → changes.left? tree.home root entry.1 = some entry.2 := by
  have hnode : ∀ entry ∈ changes.updated.entries ++ changes.added.entries,
      (commit root changes tree).tree.nodeAt? (Path.join root entry.1) =
        (changes.left? tree.home root entry.1).map (.file ·.toUTF8) := by
    intro entry hentry
    refine nodeAt?_commit h ?_
    rcases List.mem_append.1 hentry with hentry | hentry
    · exact .inl (List.mem_map_of_mem hentry)
    · exact .inr (.inl (List.mem_map_of_mem hentry))
  constructor
  · intro hstands entry hentry hdeleted
    have hwritten := hstands.written entry hentry hdeleted
    rw [hnode entry hentry, Option.map_eq_some_iff] at hwritten
    obtain ⟨text, hleft, hfile⟩ := hwritten
    rw [hleft, String.toByteArray_inj.1 (Node.file.inj hfile)]
  · intro hleft
    refine ⟨fun entry hentry hdeleted => ?_, fun path hpath => ?_⟩
    · rw [hnode entry hentry, hleft entry hentry hdeleted]
      rfl
    · rw [nodeAt?_commit h (.inr (.inr hpath)), Changes.left?_of_mem_deleted hpath]
      rfl

/-- A path has one reported text: no file is both updated and added. -/
theorem Changes.Records.eq_of_fst_eq {files : Files} {actions : List Action}
    (h : changes.Records files actions) {entry other : String × String}
    (hentry : entry ∈ changes.updated.entries ++ changes.added.entries)
    (hother : other ∈ changes.updated.entries ++ changes.added.entries)
    (heq : entry.1 = other.1) : entry = other := by
  obtain ⟨path, text⟩ := entry
  obtain ⟨path', text'⟩ := other
  obtain rfl : path = path' := heq
  have hone : ∀ map : PathMap String, (path, text) ∈ map.entries → (path, text') ∈ map.entries →
      (path, text) = (path, text') := by
    intro map hmem hmem'
    rw [← PathMap.get?_eq_some_iff_mem] at hmem hmem'
    rw [Option.some.inj (hmem.symm.trans hmem')]
  have hapart : ∀ text text', (path, text) ∈ changes.updated.entries →
      (path, text') ∉ changes.added.entries := fun text text' hupdated hadded =>
    (h.disjoint path (List.mem_map_of_mem hadded)).1 (List.mem_map_of_mem hupdated)
  rcases List.mem_append.1 hentry with hentry | hentry
  · rcases List.mem_append.1 hother with hother | hother
    · exact hone changes.updated hentry hother
    · exact absurd hother (hapart text text' hentry)
  · rcases List.mem_append.1 hother with hother | hother
    · exact absurd hentry (hapart text' text hother)
    · exact hone changes.added hentry hother

/-- If different paths name different places, every reported text is the one that is left. -/
theorem Changes.Records.left?_eq_some {files : Files} {actions : List Action} {home : Place}
    (h : changes.Records files actions)
    (hplaces : ∀ path ∈ changes.touched, ∀ other ∈ changes.touched,
      Place.ofPath home (Path.join root path) = Place.ofPath home (Path.join root other) →
      path = other)
    {entry : String × String} (hentry : entry ∈ changes.updated.entries ++ changes.added.entries)
    (hdeleted : entry.1 ∉ changes.deleted.paths) :
    changes.left? home root entry.1 = some entry.2 := by
  have htouched : ∀ other ∈ changes.updated.entries ++ changes.added.entries,
      other.1 ∈ changes.touched := by
    intro other hother
    rw [Changes.mem_touched_iff]
    rcases List.mem_append.1 hother with hother | hother
    · exact .inl (List.mem_map_of_mem hother)
    · exact .inr (.inl (List.mem_map_of_mem hother))
  have hkept : ¬ ∃ path ∈ (Commit.Plan.ofChanges root changes).deletions,
      Place.ofPath home path = Place.ofPath home (Path.join root entry.1) := by
    rintro ⟨full, hfull, hsame⟩
    obtain ⟨path, hpath, rfl⟩ := List.mem_map.1 hfull
    have heq := hplaces path (Changes.mem_touched_iff.2 (.inr (.inr hpath))) entry.1
      (htouched entry hentry) hsame
    exact hdeleted (heq ▸ hpath)
  have hwritten : Path.join root entry.1 ∈
      (Commit.Plan.ofChanges root changes).writes.map Commit.Write.path :=
    List.mem_map.2 ⟨.ofEntry root entry, List.mem_map_of_mem hentry, rfl⟩
  obtain ⟨last, hmem, hsame, hlast⟩ := Commit.Plan.exists_last_write home hwritten
  obtain ⟨other, hother, rfl⟩ := List.mem_map.1 hmem
  have heq := hplaces other.1 (htouched other hother) entry.1 (htouched entry hentry) hsame
  rw [Changes.left?, Commit.Plan.left?, if_neg hkept, hlast, ← h.eq_of_fst_eq hother hentry heq]
  rfl

/-- A commit by any method that comes to its end leaves at every path what one in place leaves. -/
theorem nodeAt?_method_commit {method : Commit.Method}
    (hapart : method.KeepsApart tree.home (Commit.Plan.ofChanges root changes).paths)
    (h : (method.commit root changes tree).refusal? = none) :
    (commit root changes tree).refusal? = none ∧
      ∀ path, (method.commit root changes tree).tree.nodeAt? path =
        (commit root changes tree).tree.nodeAt? path := by
  rcases method.failsToStage_or_agrees hapart with hfails | hagrees
  · have hrefused := (Commit.Method.commit_of_failsToStage hfails).1
    rw [h] at hrefused
    exact nomatch hrefused
  · exact ⟨hagrees.refusal.symm.trans h, hagrees.nodeAt?⟩

/-- **What a successful command reports.** It says which changes the patch comes to. At each of
their paths then stands the last text that was written to the place which the path names, or nothing
if a file was deleted there. So what is reported as deleted is gone, and the whole report stands
exactly if every reported text is the one that is left at its place. This is so whenever no two
paths of the patch name one place. The temporary files of the command, if its method makes some, are
taken to have names of their own. -/
theorem stands_execute_iff (method : Commit.Method) (input : Input) (choices : Choices)
    (root : String) (extract json eventJson : Bool) (verbosity : Nat) (standardInput : ByteArray)
    {tree after : Tree} {report : Report}
    (hapart : ∀ changes,
      (requested input choices root extract standardInput tree).result = .ok changes →
      method.KeepsApart tree.home (Commit.Plan.ofChanges root changes).paths)
    (h : (Request.apply input choices root extract false json eventJson).execute method verbosity
      standardInput tree = (report, after))
    (hcode : report.exitCode = 0) :
    ∃ changes,
      (requested input choices root extract standardInput tree).result = .ok changes ∧
      report.standardOutput = changes.show false json ∧
      (∀ path ∈ changes.touched, after.nodeAt? (Path.join root path) =
        (changes.left? tree.home root path).map (.file ·.toUTF8)) ∧
      (∀ path ∈ changes.deleted.paths, after.nodeAt? (Path.join root path) = none) ∧
      (changes.Stands root after ↔
        ∀ entry ∈ changes.updated.entries ++ changes.added.entries,
          entry.1 ∉ changes.deleted.paths →
          changes.left? tree.home root entry.1 = some entry.2) ∧
      ((∀ path ∈ changes.touched, ∀ other ∈ changes.touched,
          Place.ofPath tree.home (Path.join root path) =
            Place.ofPath tree.home (Path.join root other) → path = other) →
        changes.Stands root after) := by
  have hends := Request.ends_execute method input choices root extract standardInput tree false
    json eventJson verbosity
  rw [h] at hends
  cases hends with
  | refused _ hone => exact absurd (hone.symm.trans hcode) (by decide)
  | shown hdry => exact nomatch hdry
  | broken _ _ _ hone => exact absurd (hone.symm.trans hcode) (by decide)
  | @committed changes _ hresult hended _ houtput hafter =>
    obtain ⟨settings, actions, files, -, -, happlied⟩ := requested_result_eq_ok_iff.1 hresult
    have hrecords := Changes.records_of_result happlied
    obtain rfl : after = (method.commit root changes tree).tree := hafter
    obtain ⟨hrefusal, hnode⟩ := nodeAt?_method_commit (hapart changes hresult) hended
    have hstands : changes.Stands root (method.commit root changes tree).tree ↔
        changes.Stands root (commit root changes tree).tree :=
      ⟨fun h => h.of_nodeAt?_eq fun path => (hnode path).symm, fun h => h.of_nodeAt?_eq hnode⟩
    refine ⟨changes, hresult, houtput, fun path hpath => ?_, fun path hpath => ?_,
      hstands.trans (stands_commit_iff hrefusal), fun hplaces => ?_⟩
    · rw [hnode, nodeAt?_commit hrefusal (Changes.mem_touched_iff.1 hpath)]
    · rw [hnode, nodeAt?_commit hrefusal (.inr (.inr hpath)), Changes.left?_of_mem_deleted hpath]
      rfl
    · rw [hstands, stands_commit_iff hrefusal]
      exact fun entry hentry hdeleted => hrecords.left?_eq_some hplaces hentry hdeleted

/-- A file is updated, another one is added in a new directory and a third one is deleted, under
paths with names that stay: everything is as reported. -/
theorem stands_execute_iff_staying_names :
    let document := Text.unlines ["*** Begin Patch", "*** Update File: ./a", "+x",
      "*** Add File: d//n/c", "+y", "*** Delete File: d/./b", "*** End Patch"]
    let input : Input := ⟨none, some document⟩
    let choices : Choices := ⟨none, false, false, false⟩
    let tree : Tree := ⟨["home"], [(["home"], .directory), (["home", "a"], .file "z".toUTF8),
      (["home", "d"], .directory), (["home", "d", "b"], .file "w".toUTF8)]⟩
    let changes : Changes :=
      { updated := PathMap.empty.insert "./a" "x\nz"
        added := PathMap.empty.insert "d//n/c" "y"
        deleted := PathMap.empty.insert "d/./b" () }
    let request : Request := .apply input choices "." false false false false
    let method : Commit.Method := .staged .unspelled
    (request.execute method 0 ⟨#[]⟩ tree).1.exitCode = 0 ∧
      (requested input choices "." false ⟨#[]⟩ tree).result = .ok changes ∧
      changes.Stands "." (request.execute method 0 ⟨#[]⟩ tree).2 := by
  intro document input choices tree changes request method
  have hcode : (request.execute method 0 ⟨#[]⟩ tree).1.exitCode = 0 := by decide +kernel
  have hresult : (requested input choices "." false ⟨#[]⟩ tree).result = .ok changes := by
    rw [Run.result_eq_ok_iff]
    decide +kernel
  have hhome : ∀ name ∈ tree.home, '/' ∉ name.toList := by decide +kernel
  have hrun := (Prod.eta (request.execute method 0 ⟨#[]⟩ tree)).symm
  obtain ⟨reported, hreported, -, -, -, -, hstands⟩ :=
    stands_execute_iff method input choices "." false false false 0 ⟨#[]⟩
      (fun changes _ => Commit.Stager.keepsApart_unspelled hhome _) hrun hcode
  obtain rfl : changes = reported := Except.ok.inj (hresult.symm.trans hreported)
  exact ⟨hcode, hresult, hstands (by decide +kernel)⟩

/-- One file under two spellings of its path: the command succeeds and reports two texts for the
file, and only one of them is there. -/
theorem not_stands_two_spellings :
    let document := Text.unlines ["*** Begin Patch", "*** Update File: a", "+x",
      "*** Update File: ./a", "+y", "*** End Patch"]
    let input : Input := ⟨none, some document⟩
    let choices : Choices := ⟨none, false, false, false⟩
    let tree : Tree := ⟨["home"], [(["home"], .directory), (["home", "a"], .file "z".toUTF8)]⟩
    let changes : Changes := { updated := (PathMap.empty.insert "a" "x\nz").insert "./a" "y\nz" }
    let request : Request := .apply input choices "." false false false false
    let method : Commit.Method := .staged .unspelled
    (request.execute method 0 ⟨#[]⟩ tree).1.exitCode = 0 ∧
      (requested input choices "." false ⟨#[]⟩ tree).result = .ok changes ∧
      (request.execute method 0 ⟨#[]⟩ tree).2.nodeAt? "././a" =
        some (.file "x\nz".toUTF8) ∧
      ¬ changes.Stands "." (request.execute method 0 ⟨#[]⟩ tree).2 := by
  intro document input choices tree changes request method
  have hnode : (request.execute method 0 ⟨#[]⟩ tree).2.nodeAt? "././a" =
      some (.file "x\nz".toUTF8) := by
    decide +kernel
  refine ⟨by decide +kernel, ?_, hnode, fun hstands => ?_⟩
  · rw [Run.result_eq_ok_iff]
    decide +kernel
  · have hwritten := hstands.written ("./a", "y\nz") (by decide +kernel) (by decide +kernel)
    have hpath : Path.join "." "./a" = "././a" := by decide +kernel
    rw [hpath, hnode] at hwritten
    exact absurd (String.toByteArray_inj.1 (Node.file.inj (Option.some.inj hwritten))) (by decide)

end LinePatch
