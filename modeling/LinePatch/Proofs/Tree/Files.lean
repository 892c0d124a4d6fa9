import LinePatch.Tree.Edit

/-!
# Files and directories of a tree

What stands in a tree after something is put into it or taken out of it, told apart by files and
directories. Two trees may have the same files although one of them has more directories, and they
may have the same directories although their files differ.

## Main definitions

* `Tree.fileAt?`: the bytes of the file at a place.
* `Tree.SameFiles`: trees that have the same files.
* `Tree.GainsDirectories`: a change by which only directories come.
* `Tree.KeepsDirectories`: a change by which no directory goes.

## Main results

* `Tree.node?_put`, `Tree.node?_erase`: what stands in a changed tree.
* `Tree.GainsDirectories.sameFiles`, `Tree.GainsDirectories.keepsDirectories`: what such a change
  leaves as it was.
-/

namespace LinePatch.Tree

variable {tree before after later : Tree} {place : Place}

/-- The bytes of the file at a place. -/
def fileAt? (tree : Tree) (place : Place) : Option ByteArray :=
  match tree.node? place with
  | some (.file content) => some content
  | _ => none

/-- Both trees have the same files with the same bytes. -/
def SameFiles (before after : Tree) : Prop :=
  ∀ place, after.fileAt? place = before.fileAt? place

/-- The second tree is the first one with more directories. -/
structure GainsDirectories (before after : Tree) : Prop where
  home_eq : after.home = before.home
  node?_eq_or : ∀ place, after.node? place = before.node? place ∨
    before.node? place = none ∧ after.node? place = some .directory

/-- Every directory of the first tree is one of the second. -/
structure KeepsDirectories (before after : Tree) : Prop where
  home_eq : after.home = before.home
  directory : ∀ place, before.node? place = some .directory → after.node? place = some .directory

/-! ### What stands in a changed tree -/

@[simp] theorem node?_top (tree : Tree) : tree.node? [] = some .directory :=
  if_pos rfl

theorem lookup_filter_ne (nodes : List (Place × Node)) (place other : Place) :
    (nodes.filter (·.1 ≠ place)).lookup other =
      if other = place then none else nodes.lookup other := by
  split
  · rename_i hother
    rw [List.lookup_eq_none_iff]
    intro entry hentry
    have hkey : entry.1 ≠ place := of_decide_eq_true (List.mem_filter.1 hentry).2
    rw [hother, bne_iff_ne]
    exact hkey.symm
  · rename_i hother
    induction nodes with
    | nil => rfl
    | cons entry nodes ih =>
      by_cases hkey : entry.1 = place
      · rw [List.filter_cons_of_neg (by simpa using hkey), ih, List.lookup_cons, hkey,
          beq_false_of_ne hother]
      · rw [List.filter_cons_of_pos (by simpa using hkey), List.lookup_cons, List.lookup_cons, ih]

theorem node?_put (h : place ≠ []) (node : Node) (other : Place) :
    (tree.put place node).node? other = if other = place then some node else tree.node? other := by
  unfold node? put
  by_cases hother : other = place
  · rw [if_pos hother, if_neg (hother ▸ h), hother, List.lookup_cons_self]
  · rw [if_neg hother, List.lookup_cons, beq_false_of_ne hother, lookup_filter_ne,
      if_neg hother]

theorem node?_erase (h : place ≠ []) (other : Place) :
    (tree.erase place).node? other = if other = place then none else tree.node? other := by
  unfold node? erase
  by_cases hother : other = place
  · rw [if_pos hother, if_neg (hother ▸ h), lookup_filter_ne, if_pos hother]
  · rw [if_neg hother, lookup_filter_ne, if_neg hother]

theorem fileAt?_put_file (h : place ≠ []) (content : ByteArray) (other : Place) :
    (tree.put place (.file content)).fileAt? other =
      if other = place then some content else tree.fileAt? other := by
  unfold fileAt?
  rw [node?_put h]
  by_cases hother : other = place
  · rw [if_pos hother, if_pos hother]
  · rw [if_neg hother, if_neg hother]

theorem fileAt?_erase (h : place ≠ []) (other : Place) :
    (tree.erase place).fileAt? other = if other = place then none else tree.fileAt? other := by
  unfold fileAt?
  rw [node?_erase h]
  by_cases hother : other = place
  · rw [if_pos hother, if_pos hother]
  · rw [if_neg hother, if_neg hother]

/-! ### Directories that come -/

theorem SameFiles.refl (tree : Tree) : SameFiles tree tree :=
  fun _ => rfl

theorem GainsDirectories.refl (tree : Tree) : GainsDirectories tree tree :=
  ⟨rfl, fun _ => .inl rfl⟩

theorem GainsDirectories.trans (h : GainsDirectories before after)
    (h' : GainsDirectories after later) : GainsDirectories before later := by
  refine ⟨h'.home_eq.trans h.home_eq, fun place => ?_⟩
  rcases h.node?_eq_or place with hsame | ⟨hnone, hdirectory⟩
  · rw [← hsame]
    exact h'.node?_eq_or place
  · right
    refine ⟨hnone, ?_⟩
    rcases h'.node?_eq_or place with hsame | ⟨-, hdirectory'⟩
    · rw [hsame, hdirectory]
    · exact hdirectory'

/-- A directory that is made where there is nothing. -/
theorem gainsDirectories_put (h : tree.node? place = none) :
    GainsDirectories tree (tree.put place .directory) := by
  have htop : place ≠ [] := by
    rintro rfl
    rw [node?_top] at h
    exact nomatch h
  refine ⟨rfl, fun other => ?_⟩
  rw [node?_put htop]
  split
  · rename_i hother
    exact .inr ⟨hother ▸ h, rfl⟩
  · exact .inl rfl

theorem GainsDirectories.sameFiles (h : GainsDirectories before after) :
    SameFiles before after := by
  intro place
  unfold fileAt?
  rcases h.node?_eq_or place with hsame | ⟨hnone, hdirectory⟩
  · rw [hsame]
  · rw [hnone, hdirectory]

theorem GainsDirectories.keepsDirectories (h : GainsDirectories before after) :
    KeepsDirectories before after := by
  refine ⟨h.home_eq, fun place hdirectory => ?_⟩
  rcases h.node?_eq_or place with hsame | ⟨hnone, -⟩
  · rw [hsame, hdirectory]
  · rw [hnone] at hdirectory
    exact nomatch hdirectory

/-! ### Files that come and go -/

/-- Where no directory stands, a file may come without changing the directories. -/
theorem keepsDirectories_put_file (htop : place ≠ []) (h : tree.node? place ≠ some .directory)
    (content : ByteArray) :
    KeepsDirectories tree (tree.put place (.file content)) ∧
      KeepsDirectories (tree.put place (.file content)) tree := by
  refine ⟨⟨rfl, fun other hother => ?_⟩, ⟨rfl, fun other hother => ?_⟩⟩
  · have hne : other ≠ place := fun heq => h (heq ▸ hother)
    rw [node?_put htop, if_neg hne, hother]
  · rw [node?_put htop] at hother
    split at hother
    · simp at hother
    · exact hother

/-- Where no directory stands, what stands there may go without changing the directories. -/
theorem keepsDirectories_erase (htop : place ≠ []) (h : tree.node? place ≠ some .directory) :
    KeepsDirectories tree (tree.erase place) ∧ KeepsDirectories (tree.erase place) tree := by
  refine ⟨⟨rfl, fun other hother => ?_⟩, ⟨rfl, fun other hother => ?_⟩⟩
  · have hne : other ≠ place := fun heq => h (heq ▸ hother)
    rw [node?_erase htop, if_neg hne, hother]
  · rw [node?_erase htop] at hother
    split at hother
    · exact nomatch hother
    · exact hother

end LinePatch.Tree
