import LinePatch.Command.Commit

/-!
# Staged commits

On a disk that others read, a text is not written in place. It is first written to a temporary file
in the directory of its path, and once all texts are there each of these files is moved to its path.
A commit that is refused on the way discards the temporary files that are left.

Where a temporary file is made is not told by the tree or the changes: its name is chosen at random,
and making it may fail for reasons of its own.

## Main definitions

* `Commit.Stager`: what chooses the places of temporary files.
* `Commit.Stager.unspelled`: one that chooses names which no path spells.
* `Commit.stage`, `Commit.persist`, `Commit.discard`: temporary files that are made, moved to their
  paths, and thrown away.
* `stagedCommit`: brings changes into a tree by way of temporary files.
* `Commit.Method`: the ways of bringing changes into a tree.
-/

namespace LinePatch

namespace Commit

/-- What makes temporary files in directories. -/
structure Stager where
  /-- The place of a new file in a directory, or why none is made. -/
  place? : Tree → String → Except String Place
  /-- The file is a new one. -/
  node?_place : ∀ {tree directory place}, place? tree directory = .ok place →
    tree.node? place = none

/-- A name that is longer than all names of a tree. As it has a slash in it, it is none of the names
of a path either. -/
def unspelledName (tree : Tree) : String :=
  let lengths := (tree.nodes.flatMap Prod.fst).map String.length
  String.ofList ('/' :: List.replicate (lengths.max?.getD 0) 't')

theorem slash_mem_unspelledName (tree : Tree) : '/' ∈ (unspelledName tree).toList := by
  rw [unspelledName, String.toList_ofList]
  exact List.mem_cons_self

theorem unspelledName_not_mem {tree : Tree} {entry : Place × Node} (h : entry ∈ tree.nodes) :
    unspelledName tree ∉ entry.1 := by
  intro hmem
  have hlength := List.le_max?_getD_of_mem (k := 0)
    (List.mem_map_of_mem (f := String.length) (List.mem_flatMap.2 ⟨entry, h, hmem⟩))
  simp only [unspelledName, String.length_ofList, List.length_cons, List.length_replicate]
    at hlength
  omega

/-- Makes temporary files in directories that there are, under names which no path spells. -/
def Stager.unspelled : Stager where
  place? tree directory :=
    match tree.find directory with
    | .error fault => .error fault.message
    | .ok here =>
      if tree.node? here = some .directory then .ok (here ++ [unspelledName tree])
      else .error Tree.Fault.notDirectory.message
  node?_place := by
    intro tree directory place hplace
    split at hplace
    · exact nomatch hplace
    · split at hplace
      · obtain rfl := Except.ok.inj hplace
        rw [Tree.node?, if_neg (List.concat_ne_nil _ _), List.lookup_eq_none_iff]
        intro entry hentry
        rw [bne_iff_ne]
        intro heq
        exact unspelledName_not_mem hentry (heq ▸ List.mem_append_right _ List.mem_cons_self)
      · simp at hplace

theorem Stager.place?_unspelled_eq_ok_iff {tree : Tree} {directory : String} {place : Place} :
    unspelled.place? tree directory = .ok place ↔
      ∃ here, tree.find directory = .ok here ∧ tree.node? here = some .directory ∧
        here ++ [unspelledName tree] = place := by
  cases hfind : tree.find directory with
  | error fault => simp [unspelled, hfind]
  | ok here => by_cases hhere : tree.node? here = some .directory <;> simp [unspelled, hfind, hhere]

/-- A text that is in a temporary file. -/
structure Staged where
  place : Place
  write : Write
  deriving DecidableEq, Repr

/-- The tree without a temporary file, if it is still there. -/
def Staged.discard (staged : Staged) (tree : Tree) : Tree :=
  match tree.node? staged.place with
  | some (.file _) => tree.erase staged.place
  | _ => tree

/-- The tree once temporary files have been thrown away. -/
def discard (tree : Tree) (staged : List Staged) : Tree :=
  staged.foldl (fun tree file => file.discard tree) tree

/-- Writes texts to temporary files, each after the directories of its path have been made. The
files that were written before a refusal are still there. -/
def stage (stager : Stager) (tree : Tree) : List Write → Tree × List Staged × Option Refusal
  | [] => (tree, [], none)
  | write :: writes =>
    match tree.makeDirectories write.directories.2 with
    | (tree, some fault) => (tree, [], some (.directoryNotMade write.directories.1 fault))
    | (tree, none) =>
      match stager.place? tree write.directories.1 with
      | .error reason => (tree, [], some (.fileNotStaged write.path reason))
      | .ok place =>
        let (tree, staged, refusal?) :=
          stage stager (tree.put place (.file write.text.toUTF8)) writes
        (tree, ⟨place, write⟩ :: staged, refusal?)

/-- Moves a temporary file to its path. -/
def Staged.persist (staged : Staged) (tree : Tree) : Except Tree.Fault Tree :=
  match tree.node? staged.place with
  | some (.file content) => (tree.erase staged.place).placeFile staged.write.path content
  | some .directory => .error .isDirectory
  | none => .error .missing

/-- Moves temporary files to their paths. One that cannot be moved is thrown away, with those after
it. -/
def persist (tree : Tree) : List Staged → Outcome
  | [] => ⟨tree, [], none⟩
  | staged :: later =>
    match staged.persist tree with
    | .ok tree => (persist tree later).after (.written staged.write.path)
    | .error fault =>
      ⟨discard tree (staged :: later), [], some (.fileNotWritten staged.write.path fault)⟩

/-- Does what is to be done, by way of temporary files. -/
def Plan.carryOutStaged (plan : Plan) (stager : Stager) (tree : Tree) : Outcome :=
  match stage stager tree plan.writes with
  | (tree, staged, some refusal) => ⟨discard tree staged, [], some refusal⟩
  | (tree, staged, none) =>
    (persist tree staged).andThen fun tree => deleteFiles tree plan.deletions

end Commit

/-- Brings changes into the directory `root` of a tree by way of temporary files. -/
def stagedCommit (stager : Commit.Stager) (root : String) (changes : Changes) (tree : Tree) :
    Commit.Outcome :=
  match Commit.plan tree root changes with
  | .error refusal => ⟨tree, [], some refusal⟩
  | .ok plan => plan.carryOutStaged stager tree

/-- A way of bringing changes into a tree. -/
inductive Commit.Method where
  /-- Texts are written in their places. -/
  | inPlace
  /-- Texts are written to temporary files first. -/
  | staged (stager : Commit.Stager)

/-- Brings changes into the directory `root` of a tree in one of the ways. -/
def Commit.Method.commit (method : Commit.Method) (root : String) (changes : Changes)
    (tree : Tree) : Commit.Outcome :=
  match method with
  | inPlace => LinePatch.commit root changes tree
  | staged stager => stagedCommit stager root changes tree

end LinePatch
