import LinePatch.Text.Blank
import Mathlib.Data.List.DropRight

/-!
# Trimmed texts

What is left of a text without the blanks at its ends is a part of it that begins and ends with
characters of other kinds, so that there is nothing to trim a second time.

## Main results

* `Text.trim_trim`: trimming a trimmed text.
* `Text.trim_space`: a blank in front of a text is trimmed with the others.
-/

namespace LinePatch.Text

theorem toList_trim (text : String) :
    (trim text).toList = (text.toList.dropWhile isBlank).rdropWhile isBlank := by
  simp [trim, List.rdropWhile]

/-- **There is nothing to trim a second time.** -/
@[simp] theorem trim_trim (text : String) : trim (trim text) = trim text := by
  rw [← String.toList_inj, toList_trim (trim text), toList_trim text]
  have hhead : ((text.toList.dropWhile isBlank).rdropWhile isBlank).dropWhile isBlank =
      (text.toList.dropWhile isBlank).rdropWhile isBlank := by
    rw [List.dropWhile_eq_self_iff]
    intro hpos
    have hkept := List.rdropWhile_prefix isBlank (text.toList.dropWhile isBlank)
    rw [hkept.getElem hpos]
    exact List.dropWhile_get_zero_not _ _ _
  rw [hhead, List.rdropWhile_idempotent]

/-- A blank in front of a text is trimmed with the others. -/
theorem trim_space (text : String) : trim (" " ++ text) = trim text := by
  have hblank : isBlank ' ' = true := by decide
  rw [← String.toList_inj, toList_trim, toList_trim]
  simp [hblank]

theorem mem_of_mem_trim {text : String} {c : Char} (h : c ∈ (trim text).toList) :
    c ∈ text.toList := by
  rw [toList_trim] at h
  exact (List.dropWhile_suffix isBlank).subset ((List.rdropWhile_prefix isBlank _).subset h)

end LinePatch.Text
