import LinePatch.Proofs.Command.Agreement
import LinePatch.Proofs.Command.Execute

/-!
# Commits that fail

A commit that is refused should leave all files as they were. It does so as long as it is refused
by one of its checks, or while directories and temporary files are made. Later it may have changed
files already when a text turns out to have no place, since one of the directories that were just
made stands there or since its name is refused, and when a file is to be deleted a second time under
another spelling of its path. What is true of commits in place is so of staged ones, and of the
command that commits in one of these ways.

## Main definitions

* `Commit.Plan.Settles`: plans that are carried out to their end, or leave all files as they were.

## Main results

* `Commit.Plan.sameFiles_carryOut_iff`: these are all such plans.
* `commit_all_or_nothing_iff`: the commits, and the runs of the command, that keep the promise.
-/

namespace LinePatch

open LinePatch.Tree (SameFiles)

namespace Commit.Plan

variable {tree : Tree} {plan : Plan}

/-- A plan of which everything is carried out, or nothing that concerns a file. -/
inductive Settles (tree : Tree) (plan : Plan) : Prop where
  /-- A directory is not made. -/
  | unprepared (h : (makeDirectories tree plan.writes).refusal?.isSome)
  /-- Every text has its place, and no file is deleted twice. -/
  | complete (hwrites : ∀ write ∈ plan.writes, ((plan.prepared tree).slot? write.path).isSome)
      (hdeletions : (plan.deletions.map tree.slot?).Nodup)
  /-- A text has no place, and the ones before it are what the files hold already. -/
  | idle {before after : List Write} {write : Write}
      (hwrites : plan.writes = before ++ write :: after)
      (hbefore : ∀ earlier ∈ before, ((plan.prepared tree).slot? earlier.path).isSome)
      (hwrite : (plan.prepared tree).slot? write.path = none)
      (hsame : ∀ place content, landed (plan.prepared tree) before place = some content →
        tree.fileAt? place = some content)

theorem carryOut_of_unprepared (h : (makeDirectories tree plan.writes).refusal?.isSome) :
    plan.carryOut tree = makeDirectories tree plan.writes := by
  obtain ⟨refusal, hrefusal⟩ := Option.isSome_iff_exists.1 h
  simp only [carryOut, Outcome.andThen, hrefusal]

theorem sameFiles_prepared (plan : Plan) (tree : Tree) : SameFiles tree (plan.prepared tree) :=
  (gainsDirectories_makeDirectories tree plan.writes).sameFiles

/-- The place of a file that there is stays the same while directories are made. -/
theorem slot?_prepared {path : String} {place : Place} (hplace : tree.slot? path = some place)
    (hfile : (tree.fileAt? place).isSome) : (plan.prepared tree).slot? path = some place := by
  refine (gainsDirectories_makeDirectories tree plan.writes).keepsDirectories.slot? hplace ?_
  intro hdirectory
  rw [← sameFiles_prepared plan tree place, Tree.fileAt?, prepared, hdirectory] at hfile
  simp at hfile

theorem carryOut_of_slots (hprepared : (makeDirectories tree plan.writes).refusal? = none)
    (hwrites : ∀ write ∈ plan.writes, ((plan.prepared tree).slot? write.path).isSome) :
    (plan.carryOut tree).refusal? =
        (deleteFiles (placeFiles (plan.prepared tree) plan.writes).tree plan.deletions).refusal? ∧
      (plan.carryOut tree).tree =
        (deleteFiles (placeFiles (plan.prepared tree) plan.writes).tree plan.deletions).tree := by
  have hplaced := (placeFiles_of_slots hwrites).1
  rw [prepared] at hplaced ⊢
  simp only [carryOut, Outcome.andThen, hprepared, hplaced, and_self]

theorem carryOut_of_no_slot (hprepared : (makeDirectories tree plan.writes).refusal? = none)
    {before after : List Write} {write : Write} (hwrites : plan.writes = before ++ write :: after)
    (hbefore : ∀ earlier ∈ before, ((plan.prepared tree).slot? earlier.path).isSome)
    (hwrite : (plan.prepared tree).slot? write.path = none) :
    (plan.carryOut tree).refusal?.isSome ∧
      ∀ place, (plan.carryOut tree).tree.fileAt? place =
        (landed (plan.prepared tree) before place).or (tree.fileAt? place) := by
  obtain ⟨hrefusal, hfiles⟩ := placeFiles_of_no_slot hbefore after hwrite
  obtain ⟨refusal, hsome⟩ := Option.isSome_iff_exists.1 hrefusal
  rw [← hwrites] at hfiles hsome
  have hcarry : (plan.carryOut tree).refusal? = some refusal ∧
      (plan.carryOut tree).tree = (placeFiles (plan.prepared tree) plan.writes).tree := by
    rw [prepared] at hsome ⊢
    simp only [carryOut, Outcome.andThen, hprepared, hsome, and_self]
  refine ⟨by rw [hcarry.1]; rfl, fun place => ?_⟩
  rw [hcarry.2, hfiles, sameFiles_prepared plan tree place]

/-- A file that is deleted is one of the tree whose texts are in their places. -/
theorem deletion_of_placed
    (hwrites : ∀ write ∈ plan.writes, ((plan.prepared tree).slot? write.path).isSome)
    {path : String} {place : Place} (hplace : tree.slot? path = some place)
    (hfile : (tree.fileAt? place).isSome) :
    (placeFiles (plan.prepared tree) plan.writes).tree.slot? path = some place ∧
      ((placeFiles (plan.prepared tree) plan.writes).tree.fileAt? place).isSome := by
  obtain ⟨-, hslots, hfiles⟩ := placeFiles_of_slots hwrites
  refine ⟨(hslots path).trans (slot?_prepared hplace hfile), ?_⟩
  rw [hfiles, sameFiles_prepared plan tree place, Option.isSome_or, hfile, Bool.or_true]

variable (hdeletions : ∀ path ∈ plan.deletions,
  ∃ place, tree.slot? path = some place ∧ (tree.fileAt? place).isSome)

include hdeletions

/-- Once all texts are in their places, the work comes to its end unless a file is deleted twice. -/
theorem refusal?_carryOut_eq_none_iff
    (hprepared : (makeDirectories tree plan.writes).refusal? = none)
    (hwrites : ∀ write ∈ plan.writes, ((plan.prepared tree).slot? write.path).isSome) :
    (plan.carryOut tree).refusal? = none ↔ (plan.deletions.map tree.slot?).Nodup := by
  have hslots : plan.deletions.map (placeFiles (plan.prepared tree) plan.writes).tree.slot? =
      plan.deletions.map tree.slot? := by
    refine List.map_congr_left fun path hpath => ?_
    obtain ⟨place, hplace, hfile⟩ := hdeletions path hpath
    rw [hplace, (deletion_of_placed hwrites hplace hfile).1]
  rw [(carryOut_of_slots hprepared hwrites).1, deleteFiles_refusal?_eq_none_iff, hslots]
  refine and_iff_right fun path hpath => ?_
  obtain ⟨place, hplace, hfile⟩ := hdeletions path hpath
  exact ⟨place, deletion_of_placed hwrites hplace hfile⟩

/-- Once all texts are in their places, the first deletion is made. -/
theorem deletions_eq_nil_of_sameFiles
    (hprepared : (makeDirectories tree plan.writes).refusal? = none)
    (hwrites : ∀ write ∈ plan.writes, ((plan.prepared tree).slot? write.path).isSome)
    (hsame : SameFiles tree (plan.carryOut tree).tree) : plan.deletions = [] := by
  cases hlist : plan.deletions with
  | nil => rfl
  | cons path paths =>
    obtain ⟨place, hplace, hfile⟩ := hdeletions path (hlist ▸ List.mem_cons_self)
    obtain ⟨hplaced, hthere⟩ := deletion_of_placed hwrites hplace hfile
    have hgone := hsame place
    rw [(carryOut_of_slots hprepared hwrites).2, hlist,
      fileAt?_deleteFiles_cons hplaced hthere] at hgone
    rw [← hgone] at hfile
    exact nomatch hfile

/-- **Which plans keep the promise.** A refused plan leaves all files as they were exactly if it
settles. -/
theorem sameFiles_carryOut_iff :
    ((plan.carryOut tree).refusal?.isSome → SameFiles tree (plan.carryOut tree).tree) ↔
      plan.Settles tree := by
  cases hprepared : (makeDirectories tree plan.writes).refusal? with
  | some refusal =>
    have hsome : (makeDirectories tree plan.writes).refusal?.isSome := by rw [hprepared]; rfl
    refine iff_of_true (fun _ => ?_) (.unprepared hsome)
    rw [carryOut_of_unprepared hsome]
    exact sameFiles_prepared plan tree
  | none =>
    constructor
    · intro hpromise
      cases hfind : plan.writes.find? fun write =>
          ((plan.prepared tree).slot? write.path).isNone with
      | none =>
        have hwrites : ∀ write ∈ plan.writes,
            ((plan.prepared tree).slot? write.path).isSome := by
          intro write hwrite
          simpa [Option.isSome_iff_ne_none] using List.find?_eq_none.1 hfind write hwrite
        refine .complete hwrites ?_
        cases hend : (plan.carryOut tree).refusal? with
        | none => exact (refusal?_carryOut_eq_none_iff hdeletions hprepared hwrites).1 hend
        | some refusal =>
          have hsame := hpromise (by rw [hend]; rfl)
          rw [deletions_eq_nil_of_sameFiles hdeletions hprepared hwrites hsame]
          exact .nil
      | some write =>
        obtain ⟨hnone, before, after, hlist, hsome⟩ := List.find?_eq_some_iff_append.1 hfind
        have hbefore : ∀ earlier ∈ before,
            ((plan.prepared tree).slot? earlier.path).isSome := by
          intro earlier hearlier
          simpa [Option.isSome_iff_ne_none] using hsome earlier hearlier
        have hwrite := Option.isNone_iff_eq_none.1 hnone
        obtain ⟨hrefusal, hfiles⟩ := carryOut_of_no_slot hprepared hlist hbefore hwrite
        refine .idle hlist hbefore hwrite fun place content hcontent => ?_
        have hsame := hpromise hrefusal place
        rw [hfiles, hcontent] at hsame
        exact hsame.symm
    · rintro (hsome | ⟨hwrites, hnodup⟩ | ⟨hlist, hbefore, hwrite, hsame⟩) hrefusal
      · rw [hprepared] at hsome
        exact nomatch hsome
      · rw [(refusal?_carryOut_eq_none_iff hdeletions hprepared hwrites).2 hnodup] at hrefusal
        exact nomatch hrefusal
      · intro place
        rw [(carryOut_of_no_slot hprepared hlist hbefore hwrite).2]
        cases hcontent : landed (plan.prepared tree) _ place with
        | none => rfl
        | some content => exact (hsame place content hcontent).symm

end Commit.Plan

section Promise

variable (tree : Tree) (root : String)

/-- A commit in place that is refused leaves all files as they were exactly if what it plans
settles. -/
theorem sameFiles_commit_iff (changes : Changes) :
    ((commit root changes tree).refusal?.isSome →
        SameFiles tree (commit root changes tree).tree) ↔
      ∀ plan, Commit.plan tree root changes = .ok plan → plan.Settles tree := by
  unfold commit
  cases hplan : Commit.plan tree root changes with
  | error refusal => exact iff_of_true (fun _ => .refl tree) fun plan h => nomatch h
  | ok plan =>
    have hdeletions : ∀ path ∈ plan.deletions,
        ∃ place, tree.slot? path = some place ∧ (tree.fileAt? place).isSome :=
      fun path hpath => Commit.deletions_of_plan hplan hpath
    refine (Commit.Plan.sameFiles_carryOut_iff hdeletions).trans ⟨fun h other hother => ?_, ?_⟩
    · obtain rfl := Except.ok.inj hother
      exact h
    · exact fun h => h plan rfl

variable {tree root} in
/-- A commit that is refused leaves all files as they were exactly if what it plans settles, or if
it fails on account of its method. -/
theorem sameFiles_method_commit_iff {method : Commit.Method} {changes : Changes}
    (hapart : method.KeepsApart tree.home (Commit.Plan.ofChanges root changes).paths) :
    ((method.commit root changes tree).refusal?.isSome →
        SameFiles tree (method.commit root changes tree).tree) ↔
      method.FailsToStage root changes tree ∨
        ∀ plan, Commit.plan tree root changes = .ok plan → plan.Settles tree := by
  by_cases hfails : method.FailsToStage root changes tree
  · exact iff_of_true (fun _ => (Commit.Method.commit_of_failsToStage hfails).2) (.inl hfails)
  · have hagrees := (method.failsToStage_or_agrees hapart).resolve_left hfails
    rw [or_iff_right hfails, ← sameFiles_commit_iff, hagrees.refusal]
    unfold SameFiles
    simp only [hagrees.fileAt?]

/-- What a run of the command leaves of the files, told by the changes that it comes to. -/
theorem sameFiles_execute_iff (method : Commit.Method) (input : Input) (choices : Choices)
    (extract dryRun json eventJson : Bool) (verbosity : Nat) (standardInput : ByteArray) :
    (((Request.apply input choices root extract dryRun json eventJson).execute method verbosity
            standardInput tree).1.exitCode = 1 →
        SameFiles tree ((Request.apply input choices root extract dryRun json eventJson).execute
          method verbosity standardInput tree).2) ↔
      (dryRun = false → ∀ changes,
        (requested input choices root extract standardInput tree).result = .ok changes →
        (method.commit root changes tree).refusal?.isSome →
        SameFiles tree (method.commit root changes tree).tree) := by
  have hends := Request.ends_execute method input choices root extract standardInput tree dryRun
    json eventJson verbosity
  generalize (Request.apply input choices root extract dryRun json eventJson).execute method
    verbosity standardInput tree = outcome at hends ⊢
  cases hends with
  | refused hresult _ _ hafter =>
    rw [hafter]
    exact iff_of_true (fun _ => .refl tree) fun _ changes hok => nomatch hresult.symm.trans hok
  | shown hdry _ _ _ hafter =>
    rw [hafter]
    exact iff_of_true (fun _ => .refl tree) fun hnot => nomatch hdry.symm.trans hnot
  | committed _ hresult hrefusal hcode =>
    refine iff_of_true (fun hone => nomatch hcode.symm.trans hone) fun _ other hother hsome => ?_
    obtain rfl := Except.ok.inj (hresult.symm.trans hother)
    rw [hrefusal] at hsome
    exact nomatch hsome
  | broken hdry hresult hrefusal hcode _ hafter =>
    rw [hafter]
    constructor
    · intro h _ other hother _
      obtain rfl := Except.ok.inj (hresult.symm.trans hother)
      exact h hcode
    · exact fun h _ => h hdry _ hresult (by rw [hrefusal]; rfl)

/-- **When a commit is all or nothing.** Let what a method makes besides the files themselves have
names of its own. Both for changes that are brought into a tree and for a run of the command, a
failure then leaves all files as they were exactly if it is one of the method, which cannot make a
temporary file, or if what is planned settles: if a directory cannot be made, if every text has its
place once the directories are made and no file is deleted twice, or if the texts before the first
one without a place are what the files hold already. -/
theorem commit_all_or_nothing_iff (method : Commit.Method) :
    (∀ changes, method.KeepsApart tree.home (Commit.Plan.ofChanges root changes).paths →
      (((method.commit root changes tree).refusal?.isSome →
          SameFiles tree (method.commit root changes tree).tree) ↔
        method.FailsToStage root changes tree ∨
          ∀ plan, Commit.plan tree root changes = .ok plan → plan.Settles tree)) ∧
    ∀ (input : Input) (choices : Choices) (extract dryRun json eventJson : Bool)
      (verbosity : Nat) (standardInput : ByteArray),
      (∀ changes, (requested input choices root extract standardInput tree).result = .ok changes →
        method.KeepsApart tree.home (Commit.Plan.ofChanges root changes).paths) →
      ((((Request.apply input choices root extract dryRun json eventJson).execute method verbosity
              standardInput tree).1.exitCode = 1 →
          SameFiles tree ((Request.apply input choices root extract dryRun json eventJson).execute
            method verbosity standardInput tree).2) ↔
        (dryRun = false → ∀ changes,
          (requested input choices root extract standardInput tree).result = .ok changes →
          method.FailsToStage root changes tree ∨
            ∀ plan, Commit.plan tree root changes = .ok plan → plan.Settles tree)) := by
  refine ⟨fun changes hapart => sameFiles_method_commit_iff hapart, ?_⟩
  intro input choices extract dryRun json eventJson verbosity standardInput hapart
  rw [sameFiles_execute_iff]
  exact forall_congr' fun _ => forall_congr' fun changes => forall_congr' fun hresult =>
    sameFiles_method_commit_iff (hapart changes hresult)

/-- The path of a file asks for a directory, so that the file has no place. The run fails when it
comes to it, and of the other file, which is in a temporary file by then, nothing remains. -/
theorem commit_all_or_nothing_iff_slash_at_end :
    let document := Text.unlines ["*** Begin Patch", "*** Add File: n/", "+x", "*** Add File: z",
      "+y", "*** End Patch"]
    let input : Input := ⟨none, some document⟩
    let choices : Choices := ⟨none, false, false, false⟩
    let tree : Tree := ⟨["home"], [(["home"], .directory)]⟩
    let changes : Changes := { added := (PathMap.empty.insert "n/" "x").insert "z" "y" }
    let request : Request := .apply input choices "." false false false false
    let method : Commit.Method := .staged .unspelled
    (requested input choices "." false ⟨#[]⟩ tree).result = .ok changes ∧
      (request.execute method 0 ⟨#[]⟩ tree).1.exitCode = 1 ∧
      SameFiles tree (request.execute method 0 ⟨#[]⟩ tree).2 := by
  intro document input choices tree changes request method
  have hresult : (requested input choices "." false ⟨#[]⟩ tree).result = .ok changes := by
    rw [Run.result_eq_ok_iff]
    decide +kernel
  have hexit : (request.execute method 0 ⟨#[]⟩ tree).1.exitCode = 1 := by decide +kernel
  have hhome : ∀ name ∈ tree.home, '/' ∉ name.toList := by decide +kernel
  obtain ⟨-, hrun⟩ := commit_all_or_nothing_iff tree "." method
  have hiff := hrun input choices false false false false 0 ⟨#[]⟩
    fun changes _ => Commit.Stager.keepsApart_unspelled hhome _
  have hsettles : (Commit.Plan.ofChanges "." changes).Settles tree :=
    @Commit.Plan.Settles.idle _ _ [] [⟨"./z", "y"⟩] ⟨"./n/", "x"⟩ (by decide +kernel) (by simp)
      (by decide +kernel) (by intro _ _ h; exact nomatch h)
  refine ⟨hresult, hexit, hiff.2 (fun _ other hother => .inr fun plan hplan => ?_) hexit⟩
  have hsame : changes = other := Except.ok.inj (hresult.symm.trans hother)
  have hplanned : Commit.Plan.ofChanges "." changes = plan :=
    hsame ▸ (Commit.plan_eq_ok hplan).1
  exact hplanned ▸ hsettles

/-- A file that is to stand where another file needs a directory: the run fails when it comes to
it, and the file before it has been written. -/
theorem not_all_or_nothing_file_and_directory :
    let document := Text.unlines ["*** Begin Patch", "*** Add File: 0", "+x", "*** Add File: a",
      "+y", "*** Add File: a/b", "+z", "*** End Patch"]
    let request : Request :=
      .apply ⟨none, some document⟩ ⟨none, false, false, false⟩ "." false false false false
    let tree : Tree := ⟨["home"], [(["home"], .directory)]⟩
    let method : Commit.Method := .staged .unspelled
    (request.execute method 0 ⟨#[]⟩ tree).1.exitCode = 1 ∧
      (request.execute method 0 ⟨#[]⟩ tree).2.fileAt? ["home", "0"] = some "x".toUTF8 ∧
      ¬ SameFiles tree (request.execute method 0 ⟨#[]⟩ tree).2 := by
  intro document request tree method
  have hexit : (request.execute method 0 ⟨#[]⟩ tree).1.exitCode = 1 := by decide +kernel
  have hwritten : (request.execute method 0 ⟨#[]⟩ tree).2.fileAt? ["home", "0"] =
      some "x".toUTF8 := by
    decide +kernel
  refine ⟨hexit, hwritten, fun hsame => ?_⟩
  have hnone : tree.fileAt? ["home", "0"] = none := by decide +kernel
  rw [hsame, hnone] at hwritten
  exact nomatch hwritten

end Promise

end LinePatch
