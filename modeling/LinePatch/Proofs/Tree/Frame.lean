import LinePatch.Proofs.Tree.Way

/-!
# Changes that stay within bounds

A change of a tree is bounded by the places at which it may touch files and the places at which it
may make directories. Bounded changes follow one another, so that a program that is made of them is
bounded as they are.

## Main definitions

* `Tree.ChangesOnly`: a change that touches files and makes directories only at such places.

## Main results

* `Tree.ChangesOnly.trans`: bounded changes one after the other.
* `Tree.changesOnly_put_file`, `Tree.changesOnly_erase`, `Tree.GainsDirectories.changesOnly`: the
  changes of one file, and directories that come.
-/

namespace LinePatch.Tree

variable {files directories : Place → Prop} {tree before after later : Tree} {place : Place}

/-- The second tree has the files of the first one but for some places, the directories of the first
one, and new directories at some places only. -/
structure ChangesOnly (files directories : Place → Prop) (before after : Tree) : Prop
    extends KeepsDirectories before after where
  file : ∀ place, after.fileAt? place ≠ before.fileAt? place → files place
  new_directory : ∀ place, after.node? place = some .directory →
    before.node? place = some .directory ∨ directories place

theorem KeepsDirectories.refl (tree : Tree) : KeepsDirectories tree tree :=
  ⟨rfl, fun _ => id⟩

theorem KeepsDirectories.trans (h : KeepsDirectories before after)
    (h' : KeepsDirectories after later) : KeepsDirectories before later :=
  ⟨h'.home_eq.trans h.home_eq, fun place hplace => h'.directory place (h.directory place hplace)⟩

theorem ChangesOnly.refl (tree : Tree) : ChangesOnly files directories tree tree :=
  ⟨.refl tree, fun _ h => absurd rfl h, fun _ => .inl⟩

/-- **Bounded changes follow one another.** -/
theorem ChangesOnly.trans (h : ChangesOnly files directories before after)
    (h' : ChangesOnly files directories after later) :
    ChangesOnly files directories before later where
  toKeepsDirectories := h.toKeepsDirectories.trans h'.toKeepsDirectories
  file place hplace := by
    by_cases hsame : after.fileAt? place = before.fileAt? place
    · exact h'.file place fun heq => hplace (heq.trans hsame)
    · exact h.file place hsame
  new_directory place hplace := by
    rcases h'.new_directory place hplace with hbefore | hnew
    · exact h.new_directory place hbefore
    · exact .inr hnew

/-- A file that comes, in place of the one that may be there. -/
theorem changesOnly_put_file (htop : place ≠ []) (hfree : tree.node? place ≠ some .directory)
    (hplace : files place) (content : ByteArray) :
    ChangesOnly files directories tree (tree.put place (.file content)) := by
  obtain ⟨hkeeps, hkeeps'⟩ := keepsDirectories_put_file htop hfree content
  refine ⟨hkeeps, fun other hother => ?_, fun other hother => .inl (hkeeps'.directory other hother)⟩
  rw [fileAt?_put_file htop] at hother
  by_cases heq : other = place
  · exact heq ▸ hplace
  · exact absurd (if_neg heq) hother

/-- A file that goes. -/
theorem changesOnly_erase (htop : place ≠ []) (hfree : tree.node? place ≠ some .directory)
    (hplace : files place) : ChangesOnly files directories tree (tree.erase place) := by
  obtain ⟨hkeeps, hkeeps'⟩ := keepsDirectories_erase htop hfree
  refine ⟨hkeeps, fun other hother => ?_, fun other hother => .inl (hkeeps'.directory other hother)⟩
  rw [fileAt?_erase htop] at hother
  by_cases heq : other = place
  · exact heq ▸ hplace
  · exact absurd (if_neg heq) hother

/-- Directories that come at places where they may come. -/
theorem GainsDirectories.changesOnly (h : GainsDirectories before after)
    (hplaces : ∀ place, after.node? place = before.node? place ∨ directories place) :
    ChangesOnly files directories before after where
  toKeepsDirectories := h.keepsDirectories
  file place hplace := absurd (h.sameFiles place) hplace
  new_directory place hplace :=
    (hplaces place).imp_left fun hsame => hsame.symm.trans hplace

end LinePatch.Tree
