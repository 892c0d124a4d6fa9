import LinePatch.Command.Execute
import LinePatch.Proofs.Path

/-!
# The files that a patch names

The files that a patch names are loaded one after the other, and a path that is known already is
not looked at again. What is loaded for a path does not depend on what was loaded before it: it is
the text of the file that the path leads to, or nothing. So it makes no difference in which order
the files are loaded, and how often a patch names one of them.

## Main definitions

* `loadedText`: what is loaded for a path.
* `Loaded`: files that are what is loaded for their paths.

## Main results

* `loadFile_eq_map`: loading one file.
* `loadFiles_eq_ok_iff`: loading the files that actions name.
* `exists_loadedText_iff`: when a file can be loaded.
-/

namespace LinePatch

variable {tree : Tree} {root path : String} {files loaded : PathMap String}
  {actions : List Action}

/-- The text of the file that a path of a patch leads to, if it leads to a file. -/
def loadedText (tree : Tree) (root path : String) : Except Refusal (Option String) := do
  let full ← Commit.target root path
  if tree.isFile full then some <$> (tree.readText full).mapError (.fileUnread full)
  else return none

/-- Files, each of which is what is loaded for its path. -/
def Loaded (tree : Tree) (root : String) (files : PathMap String) : Prop :=
  ∀ path text, files.get? path = some text → loadedText tree root path = .ok (some text)

theorem loaded_empty : Loaded tree root .empty := nofun

/-- The files with what is loaded for one more path. -/
def withLoaded (files : PathMap String) (path : String) : Option String → PathMap String
  | some text => files.insert path text
  | none => files

/-- **One file is loaded as if nothing was known.** -/
theorem loadFile_eq_map (hfiles : Loaded tree root files) (path : String) :
    loadFile tree root files path =
      (loadedText tree root path).map (withLoaded files path) := by
  cases hknown : files.get? path with
  | some text =>
    have hsame : files.insert path text = files := by
      refine PathMap.ext_get? fun asked => ?_
      rw [PathMap.get?_insert]
      split
      · rename_i heq
        rw [heq, hknown]
      · rfl
    rw [loadFile, hknown, hfiles path text hknown]
    exact congrArg Except.ok hsame.symm
  | none =>
    rw [loadFile, hknown]
    unfold loadedText
    rcases Commit.target root path with refusal | full
    · rfl
    · change (if tree.isFile full then _ else _) = Except.map _ (if tree.isFile full then _ else _)
      split
      · rcases (tree.readText full).mapError (Refusal.fileUnread full) with refusal | text <;> rfl
      · rfl

/-- After what is loaded for a path, the path has that, and all others have what they had. -/
theorem get?_withLoaded (hfiles : Loaded tree root files) {text? : Option String}
    (htext : loadedText tree root path = .ok text?) (asked : String) :
    (withLoaded files path text?).get? asked =
      if asked = path then text? else files.get? asked := by
  cases text? with
  | some text => exact PathMap.get?_insert files path text asked
  | none =>
    split
    · rename_i heq
      rw [withLoaded, Option.eq_none_iff_forall_ne_some]
      intro text hknown
      rw [← heq, hfiles asked text hknown] at htext
      exact nomatch htext
    · rfl

theorem loaded_withLoaded (hfiles : Loaded tree root files) {text? : Option String}
    (htext : loadedText tree root path = .ok text?) :
    Loaded tree root (withLoaded files path text?) := by
  intro asked text hknown
  rw [get?_withLoaded hfiles htext] at hknown
  split at hknown
  · rename_i heq
    rw [heq, htext, hknown]
  · exact hfiles asked text hknown

theorem foldlM_loadFile_eq_ok_iff (hfiles : Loaded tree root files) :
    actions.foldlM (fun files action => loadFile tree root files action.path) files = .ok loaded ↔
      (∀ action ∈ actions, loadedText tree root action.path = .ok (loaded.get? action.path)) ∧
      ∀ path, path ∉ actions.map Action.path → loaded.get? path = files.get? path := by
  induction actions generalizing files with
  | nil =>
    simp only [List.foldlM_nil, List.not_mem_nil, List.map_nil, false_implies, implies_true,
      not_false_eq_true, true_implies, true_and]
    constructor
    · rintro ⟨⟩ path
      rfl
    · exact fun h => congrArg Except.ok (PathMap.ext_get? fun path => (h path).symm)
  | cons action actions ih =>
    rw [List.foldlM_cons, loadFile_eq_map hfiles, List.forall_mem_cons]
    cases htext : loadedText tree root action.path with
    | error refusal =>
      constructor
      · exact fun h => nomatch h
      · exact fun h => nomatch h.1.1
    | ok text? =>
      change actions.foldlM _ (withLoaded files action.path text?) = Except.ok loaded ↔ _
      rw [ih (loaded_withLoaded hfiles htext), Except.ok.injEq, List.map_cons]
      constructor
      · rintro ⟨hactions, hothers⟩
        refine ⟨⟨?_, hactions⟩, fun path hpath => ?_⟩
        · by_cases hagain : action.path ∈ actions.map Action.path
          · obtain ⟨other, hother, hsame⟩ := List.mem_map.1 hagain
            have hloaded := hactions other hother
            rw [hsame, htext] at hloaded
            exact Except.ok.inj hloaded
          · rw [hothers action.path hagain, get?_withLoaded hfiles htext, if_pos rfl]
        · obtain ⟨hne, hlater⟩ := not_or.1 (mt List.mem_cons.2 hpath)
          rw [hothers path hlater, get?_withLoaded hfiles htext, if_neg hne]
      · rintro ⟨⟨hfirst, hactions⟩, hothers⟩
        refine ⟨hactions, fun path hpath => ?_⟩
        rw [get?_withLoaded hfiles htext]
        split
        · rename_i heq
          rw [heq, hfirst]
        · rename_i hne
          exact hothers path (mt List.mem_cons.1 (not_or.2 ⟨hne, hpath⟩))

/-- **The files that actions name**: each path has what is loaded for it, and nothing else is
loaded. -/
theorem loadFiles_eq_ok_iff :
    loadFiles tree root actions = .ok loaded ↔
      (∀ action ∈ actions, loadedText tree root action.path = .ok (loaded.get? action.path)) ∧
      ∀ path, path ∉ actions.map Action.path → loaded.get? path = none :=
  foldlM_loadFile_eq_ok_iff loaded_empty

/-- Files are loaded if each of them can be. -/
theorem exists_loadFiles_eq_ok (h : ∀ action ∈ actions, ∃ text?,
    loadedText tree root action.path = .ok text?) :
    ∃ loaded, loadFiles tree root actions = .ok loaded := by
  have hfold : ∀ files, Loaded tree root files → ∃ loaded,
      actions.foldlM (fun files action => loadFile tree root files action.path) files =
        .ok loaded := by
    induction actions with
    | nil => exact fun files _ => ⟨files, rfl⟩
    | cons action actions ih =>
      intro files hfiles
      obtain ⟨⟨text?, htext⟩, hactions⟩ := List.forall_mem_cons.1 h
      rw [List.foldlM_cons, loadFile_eq_map hfiles, htext]
      exact ih hactions _ (loaded_withLoaded hfiles htext)
  exact hfold .empty loaded_empty

/-! ### What a path leads to -/

theorem target_eq_ok_iff {full : String} :
    Commit.target root path = .ok full ↔
      Path.isConfined path = true ∧ Path.join root path = full := by
  unfold Commit.target Path.within?
  cases Path.isConfined path <;> simp

/-- Bytes are decoded as the text that they encode. -/
theorem Tree.decode_eq_ok_iff {content : ByteArray} {text : String} :
    Tree.decode content = .ok text ↔ content = text.toUTF8 := by
  unfold Tree.decode String.fromUTF8?
  by_cases hvalid : content.IsValidUTF8
  · rw [dif_pos hvalid]
    simp only [Except.ok.injEq, ← String.toByteArray_inj]
    exact Iff.rfl
  · rw [dif_neg hvalid]
    constructor
    · exact fun h => nomatch h
    · rintro rfl
      exact absurd text.isValidUTF8 hvalid

theorem Tree.readText_of_nodeAt? {content : ByteArray}
    (h : tree.nodeAt? path = some (.file content)) :
    tree.readText path = Tree.decode content := by
  unfold Tree.nodeAt? at h
  unfold Tree.readText
  cases hfind : tree.find path with
  | error fault => simp [hfind] at h
  | ok place =>
    rw [hfind] at h
    simp [bind, Except.bind, h]

theorem Tree.isFile_eq_true_iff :
    tree.isFile path = true ↔ ∃ content, tree.nodeAt? path = some (.file content) := by
  unfold Tree.isFile
  rcases tree.nodeAt? path with _ | _ | content <;> simp

/-- **What is loaded for a path** depends on what it leads to inside the directory. -/
theorem loadedText_eq (tree : Tree) (root path : String) :
    loadedText tree root path =
      if Path.isConfined path then
        match tree.nodeAt? (Path.join root path) with
        | some (.file content) =>
          some <$> (Tree.decode content).mapError (.fileUnread (Path.join root path))
        | _ => .ok none
      else .error (.outside path) := by
  unfold loadedText Commit.target Path.within?
  cases Path.isConfined path with
  | false => rfl
  | true =>
    change (if tree.isFile (Path.join root path) then _ else _) = _
    rcases hnode : tree.nodeAt? (Path.join root path) with _ | _ | content
    · rw [Tree.isFile, hnode]
      rfl
    · rw [Tree.isFile, hnode]
      rfl
    · rw [Tree.isFile, hnode, Tree.readText_of_nodeAt? hnode]
      rfl

theorem map_some_mapError_eq_ok_iff {ε ε' α : Type} {f : ε → ε'} {result : Except ε α}
    {value? : Option α} :
    some <$> result.mapError f = .ok value? ↔
      ∃ value, result = .ok value ∧ some value = value? := by
  rcases result with error | value
  · constructor
    · exact nofun
    · rintro ⟨value, ⟨⟩, -⟩
  · change Except.ok (some value) = Except.ok value? ↔ _
    simp

theorem loadedText_eq_some_iff {text : String} :
    loadedText tree root path = .ok (some text) ↔
      Path.isConfined path = true ∧
        tree.nodeAt? (Path.join root path) = some (.file text.toUTF8) := by
  rw [loadedText_eq]
  split
  · rename_i hconfined
    rcases tree.nodeAt? (Path.join root path) with _ | _ | content
    · simp
    · simp
    · simp [map_some_mapError_eq_ok_iff, Tree.decode_eq_ok_iff, hconfined]
  · simp_all

theorem loadedText_eq_none_iff :
    loadedText tree root path = .ok none ↔
      Path.isConfined path = true ∧ tree.isFile (Path.join root path) = false := by
  rw [loadedText_eq, Tree.isFile]
  split
  · rename_i hconfined
    rcases tree.nodeAt? (Path.join root path) with _ | _ | content
    · simp [hconfined]
    · simp [hconfined]
    · simp [map_some_mapError_eq_ok_iff]
  · simp_all

/-- **When a file can be loaded**: the path does not lead out of the directory, and if it leads to a
file, then to a text. -/
theorem exists_loadedText_iff :
    (∃ text?, loadedText tree root path = .ok text?) ↔
      Path.isConfined path = true ∧ ∀ content,
        tree.nodeAt? (Path.join root path) = some (.file content) → content.IsValidUTF8 := by
  constructor
  · rintro ⟨text?, htext⟩
    cases text? with
    | some text =>
      obtain ⟨hconfined, hnode⟩ := loadedText_eq_some_iff.1 htext
      refine ⟨hconfined, fun content hcontent => ?_⟩
      obtain rfl : text.toUTF8 = content := by simpa [hnode] using hcontent
      exact text.isValidUTF8
    | none =>
      obtain ⟨hconfined, hfile⟩ := loadedText_eq_none_iff.1 htext
      refine ⟨hconfined, fun content hcontent => ?_⟩
      rw [Tree.isFile, hcontent] at hfile
      exact nomatch hfile
  · rintro ⟨hconfined, hvalid⟩
    cases hfile : tree.isFile (Path.join root path) with
    | false => exact ⟨none, loadedText_eq_none_iff.2 ⟨hconfined, hfile⟩⟩
    | true =>
      obtain ⟨content, hcontent⟩ := Tree.isFile_eq_true_iff.1 hfile
      exact ⟨some (String.fromUTF8 content (hvalid content hcontent)),
        loadedText_eq_some_iff.2 ⟨hconfined, hcontent⟩⟩

end LinePatch
