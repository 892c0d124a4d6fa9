import LinePatch.Proofs.Document.Offences

/-!
# The error of a document

A text that is no document is read with one error. It names the first line that offends, and if
there is none, the line at which the end mark is missed. Reading takes a section at a time, and an
update without hunks is found only below its section, but it is the head of that section that is
named, and nothing else in it offends.

## Main definitions

* `Document.Blames`: the error that lines outside every section amount to.
* `Document.HasError`: the errors of the lines of a document.
* `Document.SyntaxError.span`: how many lines tell an error.

## Main results

* `Document.blames_append_iff`: lines in which nothing is wrong only count.
* `Document.result_readSections_eq_error_iff`: reading stops at the first offence.
* `Document.HasError.congr`: an error is told by the lines in its span.
* `Document.actions_eq_error_iff`: the errors of a text.
-/

namespace LinePatch.Document

/-! ### The first offence, or the missing end mark -/

/-- The error that lines amount to, the first of which has this number: their first offence, or
else what the lack of an end mark amounts to. -/
def Blames (bareLines : BareLines) (atEnd : Option SyntaxError) (lineNumber : Nat)
    (lines : List String) (error : SyntaxError) : Prop :=
  (∃ index, error.lineNumber = lineNumber + index ∧
      IsFirstOffence bareLines lines index error.offence) ∨
    (∀ index offence, ¬ OffenceAt bareLines lines index offence) ∧ atEnd = some error

section Blames

variable {bareLines : BareLines} {atEnd : Option SyntaxError} {lineNumber index : Nat}
  {lines front rest : List String} {line : String} {offence : Offence} {error : SyntaxError}

/-- The first offence is the error. -/
theorem IsFirstOffence.blames_iff (h : IsFirstOffence bareLines lines index offence) :
    Blames bareLines atEnd lineNumber lines error ↔ error = ⟨lineNumber + index, offence⟩ := by
  constructor
  · rintro (⟨other, hnumber, hfirst⟩ | ⟨hnone, -⟩)
    · obtain rfl : index = other := by
        refine Nat.le_antisymm (Nat.not_lt.1 fun hlt => ?_) (Nat.not_lt.1 fun hlt => ?_)
        · exact h.none_above other hlt _ hfirst.offends
        · exact hfirst.none_above index hlt _ h.offends
      obtain rfl := h.offends.unique hfirst.offends
      rw [← hnumber]
    · exact absurd h.offends (hnone index offence)
  · rintro rfl
    exact .inl ⟨index, rfl, h⟩

/-- **Lines in which nothing is wrong only count.** -/
theorem blames_append_iff
    (h : (∀ head ∈ lastHead? front, Text.beginsWith deleteMark head = true) ∨
      ∀ line ∈ rest.head?, Text.beginsWith sectionMark line = true)
    (hfront : ∀ index < front.length, ∀ offence,
      ¬ OffenceAt bareLines (front ++ rest) index offence) :
    Blames bareLines atEnd lineNumber (front ++ rest) error ↔
      Blames bareLines atEnd (lineNumber + front.length) rest error := by
  have hlater {index : Nat} {offence : Offence}
      (hoffends : OffenceAt bareLines (front ++ rest) index offence) :
      ∃ later, index = front.length + later ∧ OffenceAt bareLines rest later offence := by
    have hge : front.length ≤ index :=
      Nat.not_lt.1 fun hlt => hfront index hlt offence hoffends
    obtain ⟨later, rfl⟩ := Nat.exists_eq_add_of_le hge
    exact ⟨later, rfl, (offenceAt_append_iff h).1 hoffends⟩
  constructor
  · rintro (⟨index, hnumber, hfirst⟩ | ⟨hnone, hend⟩)
    · obtain ⟨later, rfl, hoffends⟩ := hlater hfirst.offends
      refine .inl ⟨later, by omega, hoffends, fun earlier hearlier other hother => ?_⟩
      exact hfirst.none_above (front.length + earlier) (by omega) other
        ((offenceAt_append_iff h).2 hother)
    · exact .inr ⟨fun index offence hoffends =>
        hnone _ offence ((offenceAt_append_iff h).2 hoffends), hend⟩
  · rintro (⟨index, hnumber, hfirst⟩ | ⟨hnone, hend⟩)
    · refine .inl ⟨front.length + index, by omega, (offenceAt_append_iff h).2 hfirst.offends,
        fun earlier hearlier other hother => ?_⟩
      obtain ⟨later, rfl, hoffends⟩ := hlater hother
      exact hfirst.none_above later (by omega) other hoffends
    · refine .inr ⟨fun index offence hoffends => ?_, hend⟩
      obtain ⟨later, -, hoffends⟩ := hlater hoffends
      exact hnone later offence hoffends

theorem blames_nil_iff : Blames bareLines atEnd lineNumber [] error ↔ atEnd = some error := by
  have hnone (index : Nat) (offence : Offence) : ¬ OffenceAt bareLines [] index offence := by
    rintro ⟨line, hline, -⟩
    exact nomatch hline
  constructor
  · rintro (⟨index, -, hfirst⟩ | ⟨-, hend⟩)
    · exact absurd hfirst.offends (hnone index _)
    · exact hend
  · exact fun hend => .inr ⟨hnone, hend⟩

/-- A line above every section that means nothing is passed over. -/
theorem blames_cons_of_idle (h : Text.beginsWith sectionMark line = false) (hidle : IsIdle line) :
    Blames bareLines atEnd lineNumber (line :: lines) error ↔
      Blames bareLines atEnd (lineNumber + 1) lines error := by
  have hfront : ∀ head ∈ lastHead? [line], Text.beginsWith deleteMark head = true := by
    rw [lastHead?_eq_none (List.forall_mem_singleton.2 h)]
    simp
  rw [← List.singleton_append]
  refine blames_append_iff (.inl hfront) fun index hindex offence hoffends => ?_
  obtain rfl : index = 0 := by simpa using hindex
  rcases (offends_iff_of_plain h).1 (offenceAt_zero_iff.1 hoffends) with
    ⟨-, hnot, -⟩ | ⟨⟨_, hhead, -⟩, -⟩
  · exact hnot hidle
  · exact nomatch hhead

/-- A deletion is passed over. -/
theorem blames_cons_of_delete {path : String} (h : Line.ofText line = .delete path) :
    Blames bareLines atEnd lineNumber (line :: lines) error ↔
      Blames bareLines atEnd (lineNumber + 1) lines error := by
  have hfront : ∀ head ∈ lastHead? [line], Text.beginsWith deleteMark head = true := by
    rw [lastHead?_cons_of_stars (beginsWith_sectionMark_of_kind h rfl)]
    simpa [lastHead?] using Line.beginsWith_deleteMark_iff.2 ⟨path, h⟩
  rw [← List.singleton_append]
  refine blames_append_iff (.inl hfront) fun index hindex offence => ?_
  obtain rfl : index = 0 := by simpa using hindex
  exact not_offenceAt_zero (.inr ⟨path, h⟩)

/-- A section in which nothing is wrong is passed over. -/
theorem blames_section_iff {below : List String}
    (hrest : ∀ line ∈ rest.head?, Text.beginsWith sectionMark line = true)
    (hhead : ∀ offence, ¬ OffenceAt bareLines (line :: (below ++ rest)) 0 offence)
    (hbelow : ∀ index < below.length, ∀ offence,
      ¬ OffenceAt bareLines (line :: (below ++ rest)) (index + 1) offence) :
    Blames bareLines atEnd lineNumber (line :: (below ++ rest)) error ↔
      Blames bareLines atEnd (lineNumber + 1 + below.length) rest error := by
  have hfront : ∀ index < (line :: below).length, ∀ offence,
      ¬ OffenceAt bareLines (line :: below ++ rest) index offence := by
    intro index hindex
    cases index with
    | zero => exact hhead
    | succ index => exact hbelow index (Nat.lt_of_succ_lt_succ hindex)
  rw [← List.cons_append, blames_append_iff (.inr hrest) hfront, List.length_cons,
    Nat.add_right_comm, Nat.add_assoc]

/-- A line above every section that means something is an offence. -/
theorem isFirstOffence_of_not_idle (h : Text.beginsWith sectionMark line = false)
    (hidle : ¬ IsIdle line) : IsFirstOffence bareLines (line :: lines) 0 (.strayLine line) :=
  ⟨offenceAt_zero_iff.2 (.stray h (by simp) hidle), by simp⟩

/-- A line that begins with three stars and is no head of a section is an offence. -/
theorem isFirstOffence_of_stars {more : String} (h : Line.ofText line = .stars more) :
    IsFirstOffence bareLines (line :: lines) 0 (.strayLine line) := by
  refine ⟨offenceAt_zero_iff.2 ?_, by simp⟩
  rw [offends_iff_of_stars (beginsWith_sectionMark_of_kind h rfl), h]

/-- An update without hunks is an offence. -/
theorem isFirstOffence_of_update {path : String} (h : Line.ofText line = .update path)
    (hnone : groups bareLines (sectionLines lines 0) = []) :
    IsFirstOffence bareLines (line :: lines) 0 (.noHunks path) :=
  ⟨offenceAt_zero_iff.2 (.update ((Line.ofText_eq_iff rfl).1 h) hnone), by simp⟩

/-- The first line that is no content is an offence in a section that adds a file. -/
theorem isFirstOffence_of_add {path bad : String} {above after : List String}
    (h : Line.ofText line = .add path)
    (hbelow : ∀ line ∈ above ++ bad :: after, Text.beginsWith sectionMark line = false)
    (habove : ∀ line ∈ above, IsContent line) (hbad : ¬ IsContent bad) :
    IsFirstOffence bareLines (line :: (above ++ bad :: after ++ rest)) (above.length + 1)
      (.badContent bad) := by
  have hstars := beginsWith_sectionMark_of_kind h rfl
  refine ⟨?_, fun index hindex other => ?_⟩
  · exact (offenceAt_section_iff hstars hbelow (by simp)).2
      (.inr ⟨Line.beginsWith_addMark_iff.2 ⟨path, h⟩, hbad, rfl⟩)
  · cases index with
    | zero => exact not_offenceAt_zero (.inl ⟨path, h⟩)
    | succ index =>
      have hindex' : index < above.length := Nat.lt_of_succ_lt_succ hindex
      have hline : (above ++ bad :: after)[index]? = some above[index] := by
        rw [List.getElem?_append_left hindex', List.getElem?_eq_getElem hindex']
      exact not_offenceAt_of_add h hbelow hline (habove _ (List.getElem_mem hindex'))

end Blames

/-! ### Reading up to the first offence -/

/-- Content ends at the first line that is none. -/
theorem exists_of_content_eq_error {lineNumber : Nat} {lines : List String} {error : SyntaxError}
    (h : content lineNumber (lines.map Line.ofText) = .error error) :
    ∃ above line below, lines = above ++ line :: below ∧ (∀ other ∈ above, IsContent other) ∧
      ¬ IsContent line ∧ error = ⟨lineNumber + above.length, .badContent line⟩ := by
  induction lines generalizing lineNumber with
  | nil => simp [content] at h
  | cons line lines ih =>
    have hcontent := @isContent_iff line
    have htext := Line.text_ofText line
    have hlater (hline : IsContent line)
        (h : content (lineNumber + 1) (lines.map Line.ofText) = .error error) :
        ∃ above bad below, line :: lines = above ++ bad :: below ∧
          (∀ other ∈ above, IsContent other) ∧ ¬ IsContent bad ∧
          error = ⟨lineNumber + above.length, .badContent bad⟩ := by
      obtain ⟨above, bad, below, rfl, habove, hbad, rfl⟩ := ih h
      refine ⟨line :: above, bad, below, rfl, List.forall_mem_cons.2 ⟨hline, habove⟩, hbad, ?_⟩
      rw [List.length_cons, Nat.add_right_comm, Nat.add_assoc]
    rw [List.map_cons] at h
    cases hkind : Line.ofText line with
    | added text | blank =>
      rw [hkind] at hcontent
      refine hlater (by simp [hcontent]) ?_
      rw [hkind, content] at h
      cases hrest : content (lineNumber + 1) (lines.map Line.ofText) <;>
        simp_all [Except.map]
    | _ =>
      rw [hkind] at hcontent htext
      refine ⟨[], line, lines, rfl, by simp, by simp [hcontent], ?_⟩
      rw [hkind, content] at h
      simpa [htext, eq_comm] using h
      all_goals simp

theorem Reading.result_after_eq_error_iff {reading : Reading} {action : Action}
    {error : SyntaxError} :
    (reading.after action).result = .error error ↔ reading.result = .error error := by
  cases h : reading.error? <;> simp [Reading.after, Reading.result, h]

/-- Lines are those of a section that is begun, and the ones from the next head on. -/
theorem exists_section_lines (lines : List String) :
    ∃ below rest, lines = below ++ rest ∧ sectionLines lines 0 = below ∧
      (∀ line ∈ below, Text.beginsWith sectionMark line = false) ∧
      (∀ line ∈ rest.head?, Text.beginsWith sectionMark line = true) ∧
      body (lines.map Line.ofText) = below.map Line.ofText ∧
      afterBody (lines.map Line.ofText) = rest.map Line.ofText := by
  have hbody := body_drop_map_ofText lines 0
  have hafter := afterBody_drop_map_ofText lines 0
  have hdrop := drop_sectionLines lines 0
  rw [List.drop_zero] at hbody hafter hdrop
  refine ⟨sectionLines lines 0, _, ?_, rfl, fun line hline => ?_, fun line hline => ?_, hbody,
    hafter⟩
  · rw [hdrop]
    exact List.takeWhile_append_dropWhile.symm
  · simpa using List.mem_takeWhile_imp hline
  · have hhead := List.head?_dropWhile_not (fun line => !Text.beginsWith sectionMark line) lines
    rw [hdrop] at hline
    rw [Option.mem_def.1 hline] at hhead
    simpa using hhead

/-- **Reading stops at the first offence.** From above every section on, lines that are not closed
are read with an error exactly if they amount to it. -/
theorem result_readSections_eq_error_iff (bareLines : BareLines) (atEnd : Option SyntaxError)
    (lineNumber : Nat) {lines : List String} (hopen : endMark ∉ lines) (error : SyntaxError) :
    (readSections bareLines atEnd lineNumber (lines.map Line.ofText)).result = .error error ↔
      Blames bareLines atEnd lineNumber lines error := by
  -- A section takes several lines at once, so the induction is on their number.
  induction hn : lines.length using Nat.strongRecOn generalizing lineNumber lines with
  | ind n ih =>
    subst hn
    rcases lines with _ | ⟨line, lines⟩
    · rw [blames_nil_iff]
      cases atEnd <;> simp [readSections, Reading.result]
    obtain ⟨hend, hopen⟩ := List.ne_and_not_mem_of_not_mem_cons hopen
    have hnext := ih lines.length (Nat.lt_succ_self _) (lineNumber + 1) hopen rfl
    have hkinds := beginsWith_sectionMark_eq line
    have htext := Line.text_ofText line
    have hidle := @isIdle_iff line
    rw [List.map_cons]
    cases hkind : Line.ofText line with
    | endMark => exact absurd ((Line.ofText_eq_iff rfl).1 hkind) (Ne.symm hend)
    | blank | hunk rest =>
      rw [hkind] at hkinds hidle
      rw [readSections, hnext, blames_cons_of_idle hkinds (hidle.2 (by simp))]
    | context text | added text | removed text | bare text =>
      rw [hkind] at hkinds hidle htext
      rw [(isFirstOffence_of_not_idle hkinds (by simp [hidle])).blames_iff, readSections, htext]
      simp [Reading.failed, Reading.result, eq_comm]
      all_goals simp
    | stars rest =>
      rw [hkind] at htext
      rw [(isFirstOffence_of_stars hkind).blames_iff, readSections, htext]
      simp [Reading.failed, Reading.result, eq_comm]
      all_goals simp
    | delete path =>
      rw [readSections, Reading.result_after_eq_error_iff, hnext, blames_cons_of_delete hkind]
    | update path =>
      obtain ⟨below, rest, rfl, hsection, hbelow, hrest, hbody, hafter⟩ :=
        exists_section_lines lines
      have hlater := ih rest.length (by rw [List.length_cons, List.length_append]; omega)
        (lineNumber + 1 + below.length) (fun h => hopen (List.mem_append_right _ h)) rfl
      rw [readSections, hbody, hafter, hunks_map_ofText, List.length_map]
      cases hgroups : groups bareLines below with
      | nil =>
        rw [(isFirstOffence_of_update hkind (by rw [hsection, hgroups])).blames_iff]
        simp [Reading.failed, Reading.result, eq_comm]
      | cons hunk more =>
        have hhead (offence : Offence) :
            ¬ OffenceAt bareLines (line :: (below ++ rest)) 0 offence := by
          rw [offenceAt_zero_iff, offends_iff_of_stars (beginsWith_sectionMark_of_kind hkind rfl)]
          simp [hkind, hsection, hgroups]
        rw [Reading.result_after_eq_error_iff, hlater, blames_section_iff hrest hhead
          fun index hindex offence => not_offenceAt_of_update hkind hbelow hindex]
    | add path =>
      obtain ⟨below, rest, rfl, -, hbelow, hrest, hbody, hafter⟩ := exists_section_lines lines
      have hlater := ih rest.length (by rw [List.length_cons, List.length_append]; omega)
        (lineNumber + 1 + below.length) (fun h => hopen (List.mem_append_right _ h)) rfl
      rw [readSections, hbody, hafter, List.length_map]
      cases hcontent : content (lineNumber + 1) (below.map Line.ofText) with
      | error found =>
        obtain ⟨above, bad, after, rfl, habove, hbad, rfl⟩ := exists_of_content_eq_error hcontent
        rw [(isFirstOffence_of_add hkind hbelow habove hbad).blames_iff]
        simp [Reading.result, eq_comm, Nat.add_comm, Nat.add_left_comm]
      | ok texts =>
        have hall := ((content_eq_ok_iff (lineNumber + 1) below texts).1 hcontent).1
        rw [Reading.result_after_eq_error_iff, hlater, blames_section_iff hrest
          (fun offence => not_offenceAt_zero (.inl ⟨path, hkind⟩)) fun index hindex offence =>
            not_offenceAt_of_add hkind hbelow (List.getElem?_eq_getElem hindex)
              (hall _ (List.getElem_mem hindex))]

/-! ### Documents -/

/-- The errors of the lines of a document. -/
inductive HasError (settings : Settings) (lines : List String) : SyntaxError → Prop
  /-- The first line does not open a document. -/
  | noBeginMark (unopened : ∀ first ∈ lines.head?, Text.beginsWith beginMark first = false) :
      HasError settings lines ⟨1, .noBeginMark⟩
  /-- Between the first line and the end mark this is the first line that offends. -/
  | offence {index : Nat} {offence : Offence}
      (opened : ∃ first, lines.head? = some first ∧ Text.beginsWith beginMark first = true)
      (first : IsFirstOffence settings.bareLines (scanned lines) index offence) :
      HasError settings lines ⟨index + 2, offence⟩
  /-- No line offends, and the end mark is missing. -/
  | noEndMark
      (opened : ∃ first, lines.head? = some first ∧ Text.beginsWith beginMark first = true)
      (none : ∀ index offence, ¬ OffenceAt settings.bareLines (scanned lines) index offence)
      (required : settings.requireEndMark = true) (missing : endMark ∉ lines) :
      HasError settings lines ⟨lines.length, .noEndMark⟩

section Documents

variable {settings : Settings} {first : String} {rest : List String} {error : SyntaxError}

theorem hasError_cons_iff_of_not_begins (h : Text.beginsWith beginMark first = false) :
    HasError settings (first :: rest) error ↔ error = ⟨1, .noBeginMark⟩ := by
  constructor
  · intro herror
    cases herror with
    | noBeginMark => rfl
    | offence opened | noEndMark opened =>
      obtain ⟨_, hfirst, hbegins⟩ := opened
      obtain rfl := Option.some.inj hfirst
      exact absurd (h.symm.trans hbegins) Bool.noConfusion
  · rintro rfl
    exact .noBeginMark (by simpa using h)

/-- Below a line that opens the document the lines above the end mark amount to the error. -/
theorem hasError_cons_iff_of_begins (h : Text.beginsWith beginMark first = true) :
    HasError settings (first :: rest) error ↔
      Blames settings.bareLines
        (if endMark ∈ rest then none else missingEnd settings (rest.length + 1)) 2
        (untilEnd rest) error := by
  have hopened : ∃ line, (first :: rest).head? = some line ∧
      Text.beginsWith beginMark line = true := ⟨first, rfl, h⟩
  have hmissing : endMark ∉ first :: rest ↔ endMark ∉ rest := by
    have hne : endMark ≠ first := by
      rintro rfl
      exact absurd h (by decide)
    simp [hne]
  constructor
  · intro herror
    cases herror with
    | noBeginMark unopened => exact absurd ((unopened first rfl).symm.trans h) Bool.noConfusion
    | @offence index offence _ isFirst =>
      rw [scanned_cons] at isFirst
      exact .inl ⟨index, Nat.add_comm index 2, isFirst⟩
    | noEndMark _ none required missing =>
      rw [scanned_cons] at none
      rw [if_neg (hmissing.1 missing)]
      exact .inr ⟨none, by simp [missingEnd, required]⟩
  · rintro (⟨index, hnumber, isFirst⟩ | ⟨hnone, hend⟩)
    · rw [← scanned_cons first] at isFirst
      obtain ⟨lineNumber, offence⟩ := error
      obtain rfl : lineNumber = index + 2 := hnumber.trans (Nat.add_comm 2 index)
      exact .offence hopened isFirst
    · rw [← scanned_cons first] at hnone
      split at hend
      · cases hend
      · rename_i hmem
        rw [missingEnd] at hend
        split at hend
        · obtain rfl := Option.some.inj hend
          exact .noEndMark hopened hnone ‹_› (hmissing.2 hmem)
        · cases hend

/-- **The error of a document.** -/
theorem actions_eq_error_iff_hasError {text : String} :
    actions settings text = .error error ↔ HasError settings (Text.lines text) error := by
  obtain ⟨first, rest, hlines⟩ := List.exists_cons_of_ne_nil (Text.lines_ne_nil text)
  rw [actions, hlines]
  cases hbegins : Text.beginsWith beginMark first with
  | false =>
    rw [hasError_cons_iff_of_not_begins hbegins, read_of_lines_cons hlines, hbegins]
    simp [Reading.failed, Reading.result, eq_comm]
  | true =>
    rw [hasError_cons_iff_of_begins hbegins]
    by_cases hmem : endMark ∈ rest
    · obtain ⟨above, below, rfl, habove⟩ := List.eq_append_cons_of_mem hmem
      rw [read_of_lines_eq_append hlines habove, if_pos hbegins, if_pos hmem,
        untilEnd_append_endMark habove, result_readSections_eq_error_iff _ _ _ habove]
    · rw [read_of_lines_cons hlines, if_pos hbegins, if_neg hmem, untilEnd_eq_self hmem,
        result_readSections_eq_error_iff _ _ _ hmem]

end Documents

/-! ### The lines that tell the error -/

/-- How many lines of a document from the first one on tell an error of it: the lines down to the
offending one, or, where an update has no hunks, down to the line that ends its section. -/
def SyntaxError.span (lines : List String) (error : SyntaxError) : Nat :=
  match error.offence with
  | .noHunks _ => error.lineNumber + (sectionLines lines error.lineNumber).length + 1
  | _ => error.lineNumber

section Span

variable {settings : Settings} {lines other : List String} {first : String} {rest : List String}
  {error : SyntaxError} {index : Nat}

/-- A section between the first line and the end mark is one of the document. -/
theorem sectionLines_untilEnd (h : index < (untilEnd rest).length) :
    sectionLines (untilEnd rest) (index + 1) = sectionLines (first :: rest) (index + 2) := by
  have hrest : sectionLines (first :: rest) (index + 2) = sectionLines rest (index + 1) := rfl
  rw [hrest]
  by_cases hmem : endMark ∈ rest
  · obtain ⟨above, below, rfl, habove⟩ := List.eq_append_cons_of_mem hmem
    rw [untilEnd_append_endMark habove] at h ⊢
    have hstars : Text.beginsWith sectionMark endMark = true := by decide
    rw [sectionLines, sectionLines, List.drop_append_of_le_length h, List.takeWhile_append]
    split
    · rename_i hall
      simp [hstars, (List.takeWhile_prefix _).eq_of_length hall]
    · rfl
  · rw [untilEnd_eq_self hmem]

theorem span_offence (h : IsFirstOffence settings.bareLines (untilEnd rest) index error.offence)
    (hnumber : error.lineNumber = index + 2) :
    error.span (first :: rest) = span (untilEnd rest) index error.offence + 1 := by
  obtain ⟨line, hline, -⟩ := h.offends
  have hsection := @sectionLines_untilEnd first rest index (List.getElem?_eq_some_iff.1 hline).1
  rw [SyntaxError.span]
  cases error.offence with
  | noHunks path =>
    simp only [span, hsection, hnumber]
    omega
  | _ => exact hnumber

/-- **The error of a document is told by the lines in its span**, unless the end mark is missing. -/
theorem HasError.congr (h : HasError settings lines error) (hoffence : error.offence ≠ .noEndMark)
    (hsame : lines.take (error.span lines) = other.take (error.span lines)) :
    HasError settings other error := by
  cases h with
  | noBeginMark unopened =>
    refine .noBeginMark ?_
    have hhead := congrArg List.head? hsame
    simp only [SyntaxError.span, List.head?_take, Nat.one_ne_zero, if_false] at hhead
    rwa [← hhead]
  | @offence index offence opened isFirst =>
    obtain ⟨first, hhead, hbegins⟩ := opened
    obtain ⟨rest, rfl⟩ := List.head?_eq_some_iff.1 hhead
    rw [scanned_cons] at isFirst
    rw [span_offence isFirst rfl, List.take_succ_cons] at hsame
    obtain ⟨rest', rfl⟩ : ∃ rest', other = first :: rest' := by
      cases other with
      | nil => simp at hsame
      | cons first' rest' =>
        rw [List.take_succ_cons] at hsame
        exact ⟨rest', by rw [(List.cons.inj hsame).1]⟩
    rw [List.take_succ_cons] at hsame
    refine .offence ⟨first, rfl, hbegins⟩ ?_
    rw [scanned_cons]
    refine isFirst.congr ?_
    rw [take_untilEnd, take_untilEnd]
    exact congrArg untilEnd (List.cons.inj hsame).2
  | noEndMark => exact absurd rfl hoffence

end Span

/-- **The error of a document names its first offence.** A document is read with an error exactly
if its lines have that error: the first line does not open a document; or this is the first line
that offends, of those below it and above the end mark; or none offends and the end mark is missing
and required. Unless it is missing, the error stays the same whatever the lines below its span
are. -/
theorem actions_eq_error_iff (settings : Settings) (text : String) :
    (∀ error, actions settings text = .error error ↔
      HasError settings (Text.lines text) error) ∧
    ∀ error, actions settings text = .error error → error.offence ≠ .noEndMark →
      ∀ other : String, (Text.lines text).take (error.span (Text.lines text)) =
          (Text.lines other).take (error.span (Text.lines text)) →
        actions settings other = .error error := by
  refine ⟨fun error => actions_eq_error_iff_hasError, fun error h hoffence other hsame => ?_⟩
  exact actions_eq_error_iff_hasError.2
    ((actions_eq_error_iff_hasError.1 h).congr hoffence hsame)

/-- The update without hunks is told by the line that ends its section, and what is wrong further
down does not show. -/
theorem actions_eq_error_iff_no_hunks :
    let text := "*** Begin Patch\n*** Update File: f\nremark\n*** Add File: g\n-x\n"
    let other := "*** Begin Patch\n*** Update File: f\nremark\n*** Add File: g\n+x\n*** Move"
    let error : SyntaxError := ⟨2, .noHunks "f"⟩
    actions {} text = .error error ∧ error.offence ≠ .noEndMark ∧
      (Text.lines text).take (error.span (Text.lines text)) =
        (Text.lines other).take (error.span (Text.lines text)) ∧
      actions {} other = .error error := by
  intro text other error
  have herror : actions {} text = .error error := by
    rw [actions, show read {} text = .failed 2 (.noHunks "f") by decide +kernel]
    rfl
  have hsame : (Text.lines text).take (error.span (Text.lines text)) =
      (Text.lines other).take (error.span (Text.lines text)) := by decide +kernel
  have hoffence : error.offence ≠ .noEndMark := Offence.noConfusion
  exact ⟨herror, hoffence, hsame,
    (actions_eq_error_iff {} text).2 error herror hoffence other hsame⟩

end LinePatch.Document
