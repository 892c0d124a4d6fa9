import LinePatch.Document.Line

/-!
# Telling the kinds of lines

A line with a mark is told by its mark: of every text that begins with the mark it is the kind.
The stars are told last among the marks that begin with them, so a text ends a section exactly
when it begins with three stars.

## Main definitions

* `Text.beginsWith`: whether a text begins with a mark.
* `Document.Line.isMarked`: the kinds that are told by a mark of their own.

## Main results

* `Document.Line.ofText_eq_iff`: the texts of each marked kind.
* `Document.Line.isBody_ofText`: the texts that continue a section.
-/

namespace LinePatch

/-- Whether a text begins with a mark. -/
def Text.beginsWith (mark text : String) : Bool :=
  (Text.after? mark text).isSome

theorem Text.beginsWith_iff {mark text : String} :
    beginsWith mark text = true ↔ ∃ rest, text = mark ++ rest := by
  simp only [beginsWith, Option.isSome_iff_exists, after?_eq_some_iff]

@[simp] theorem Text.after?_append (mark rest : String) : after? mark (mark ++ rest) = some rest :=
  after?_eq_some_iff.2 rfl

namespace Document.Line

/-- Whether a kind of line is told by a mark of its own, or by having no characters. What is left
are the lines of stars without a meaning and the lines without a mark. -/
def isMarked : Line → Bool
  | stars _ | bare _ => false
  | _ => true

/-- The kind of a marked line is told from its text. -/
theorem ofText_text {line : Line} (h : line.isMarked = true) : ofText line.text = line := by
  cases line with
  | endMark => decide
  | blank => decide
  | update path =>
    simp [Line.text, ofText, Text.after?, Document.endMark, updateMark,
      ← String.toList_inj]
  | add path =>
    simp [Line.text, ofText, Text.after?, Document.endMark, updateMark, addMark,
      ← String.toList_inj]
  | delete path =>
    simp [Line.text, ofText, Text.after?, Document.endMark, updateMark, addMark, deleteMark,
      ← String.toList_inj]
  | hunk rest =>
    simp [Line.text, ofText, Text.after?, Document.endMark, updateMark, addMark, deleteMark,
      sectionMark, hunkMark, ← String.toList_inj]
  | context text | added text | removed text =>
    simp [Line.text, ofText, ofPlain, Text.after?, Document.endMark, updateMark, addMark,
      deleteMark, sectionMark, hunkMark, ← String.toList_inj]
  | stars rest | bare text => cases h

/-- **A marked line is told by its mark.** -/
theorem ofText_eq_iff {line : Line} (h : line.isMarked = true) {text : String} :
    ofText text = line ↔ text = line.text := by
  constructor
  · rintro rfl
    exact (text_ofText text).symm
  · rintro rfl
    exact ofText_text h

/-- A text stands below a mark exactly if its line is of the kind that the mark tells. -/
theorem after?_eq_some_iff_ofText {mark rest text : String} (line : Line)
    (hline : line.isMarked = true) (htext : line.text = mark ++ rest) :
    Text.after? mark text = some rest ↔ ofText text = line := by
  rw [Text.after?_eq_some_iff, ofText_eq_iff hline, htext]

theorem beginsWith_iff_ofText {mark text : String} (kind : String → Line)
    (hkind : ∀ rest, (kind rest).isMarked = true)
    (htext : ∀ rest, (kind rest).text = mark ++ rest) :
    Text.beginsWith mark text = true ↔ ∃ rest, ofText text = kind rest := by
  rw [Text.beginsWith, Option.isSome_iff_exists]
  exact exists_congr fun rest => after?_eq_some_iff_ofText _ (hkind rest) (htext rest)

theorem beginsWith_updateMark_iff {text : String} :
    Text.beginsWith updateMark text = true ↔ ∃ path, ofText text = .update path :=
  beginsWith_iff_ofText .update (fun _ => rfl) fun _ => rfl

theorem beginsWith_addMark_iff {text : String} :
    Text.beginsWith addMark text = true ↔ ∃ path, ofText text = .add path :=
  beginsWith_iff_ofText .add (fun _ => rfl) fun _ => rfl

theorem beginsWith_deleteMark_iff {text : String} :
    Text.beginsWith deleteMark text = true ↔ ∃ path, ofText text = .delete path :=
  beginsWith_iff_ofText .delete (fun _ => rfl) fun _ => rfl

theorem beginsWith_hunkMark_iff {text : String} :
    Text.beginsWith hunkMark text = true ↔ ∃ rest, ofText text = .hunk rest :=
  beginsWith_iff_ofText .hunk (fun _ => rfl) fun _ => rfl

theorem isBody_ofPlain (text : String) : (ofPlain text).isBody = true := by
  unfold ofPlain
  split <;> rfl

/-- **A line continues a section unless it begins with three stars.** -/
theorem isBody_ofText (text : String) :
    (ofText text).isBody = !Text.beginsWith sectionMark text := by
  have hstars {mark rest : String} (hmark : ∃ more, mark = sectionMark ++ more)
      (htext : Text.after? mark text = some rest) : Text.beginsWith sectionMark text = true := by
    obtain ⟨more, rfl⟩ := hmark
    rw [Text.beginsWith_iff]
    exact ⟨more ++ rest, by rw [Text.after?_eq_some_iff.1 htext, String.append_assoc]⟩
  unfold ofText
  split
  · rename_i h
    subst h
    decide
  split
  · simp [isBody, hstars ⟨" Update File: ", rfl⟩ ‹_›]
  split
  · simp [isBody, hstars ⟨" Add File: ", rfl⟩ ‹_›]
  split
  · simp [isBody, hstars ⟨" Delete File: ", rfl⟩ ‹_›]
  split
  · simp [isBody, Text.beginsWith, ‹Text.after? sectionMark text = some _›]
  have hnone : Text.beginsWith sectionMark text = false := by
    rw [Text.beginsWith, Option.isSome_eq_false_iff, Option.isNone_iff_eq_none]
    exact Option.eq_none_iff_forall_ne_some.2 ‹_›
  rw [hnone]
  split
  · rfl
  · exact isBody_ofPlain text

end Document.Line

end LinePatch
