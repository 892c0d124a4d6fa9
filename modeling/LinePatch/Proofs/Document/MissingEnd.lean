import LinePatch.Proofs.Document.Grammar
import LinePatch.Proofs.Document.Hunks
import LinePatch.Proofs.Text.Lines

/-!
# Documents without an end mark

Where no end mark is required a document without one is read to its last line. A text that ends
with a line break has an empty last line below it, and this line is read like any other. So the
document is read as if the end mark stood below one more line break, and not as it is read with
the mark in the place where its lines end. The two differ by a blank line of the last section,
which is one more line that the file keeps, or one more line of a file that is added.

## Main definitions

* `Document.withEnd`: a document with the end mark in the place where its lines end.
* `Document.Section.TakesBlank`, `Document.LeftOpen`: the sections and the documents to which a
  blank line is one more line.

## Main results

* `Document.actions_append_endMark`: the reading of a document without end mark.
* `Document.result_section_concat_blank_iff`: the sections that a blank line changes.
* `Document.actions_withEnd_eq_iff`: when an end mark may be left out.
-/

namespace LinePatch.Document

/-! ### Closing a document -/

/-- A document with the end mark below it, on a line of its own. -/
def withEnd (text : String) : String :=
  if text.toList.getLast? = some '\n' then text ++ endMark else text ++ "\n" ++ endMark

theorem withEnd_append_lineFeed (above : String) :
    withEnd (above ++ "\n") = above ++ "\n" ++ endMark := by
  simp [withEnd]

theorem withEnd_of_ne {text : String} (h : ∀ above, text ≠ above ++ "\n") :
    withEnd text = text ++ "\n" ++ endMark := by
  refine if_neg fun hlast => ?_
  obtain ⟨above, habove⟩ := List.getLast?_eq_some_iff.1 hlast
  refine h (String.ofList above) ?_
  rw [← String.toList_inj, habove]
  simp

/-- **A document without end mark is read as if the mark stood below a further line break.** -/
theorem actions_append_endMark {settings : Settings} {text : String}
    (hopen : endMark ∉ Text.lines text) (hoptional : settings.requireEndMark = false) :
    actions settings (text ++ "\n" ++ endMark) = actions settings text := by
  have hend : Text.lines endMark = [endMark] := by decide
  obtain ⟨first, rest, hlines⟩ := List.exists_cons_of_ne_nil (Text.lines_ne_nil text)
  have hclosed : Text.lines (text ++ "\n" ++ endMark) = first :: (rest ++ endMark :: []) := by
    rw [Text.lines_append_lineFeed, hlines, hend, List.cons_append]
  have hrest : endMark ∉ rest := by
    rw [hlines] at hopen
    exact List.not_mem_of_not_mem_cons hopen
  rw [actions, actions, read_of_lines_eq_append hclosed hrest, read_of_lines_cons hlines]
  simp [missingEnd, hoptional]

/-! ### A blank line at the end -/

/-- The lines of a section to which a blank line at its end is one more: a hunk is opened, or there
is content for the blank line to stand below. -/
def Section.TakesBlank (part : Section) : Prop :=
  (Text.beginsWith updateMark part.head = true ∧
      ∃ line ∈ part.rest, (Line.ofText line).opensHunk = true) ∨
    (Text.beginsWith addMark part.head = true ∧ part.rest ≠ [] ∧
      ∀ line ∈ part.rest, IsContent line)

/-- The lines of a document that end in a section to which a blank line would be one more. Nothing
above that section is out of order, or it would not be reached. -/
structure LeftOpen (bareLines : BareLines) (lines : List String) : Prop where
  opened : ∃ first, lines.head? = some first ∧ Text.beginsWith beginMark first = true
  preamble : ∀ line ∈ preamble lines, IsIdle line
  last : ∃ before last, sections lines = before ++ [last] ∧
    (∀ part ∈ before, ∃ action, part.Means bareLines action) ∧ last.TakesBlank

section Blank

variable (bareLines : BareLines) (lineNumber : Nat)

/-- Outside the sections that update and add files a blank line means nothing. -/
theorem readSections_concat_blank {lines : List Line} (h : ∀ line ∈ lines, line.isBody = true) :
    readSections bareLines none lineNumber (lines ++ [.blank]) =
      readSections bareLines none lineNumber lines := by
  induction lines generalizing lineNumber with
  | nil => simp [readSections]
  | cons line lines ih =>
    obtain ⟨hline, hlines⟩ := List.forall_mem_cons.1 h
    have hnext := fun lineNumber => ih lineNumber hlines
    cases line with
    | blank | hunk rest => simp [readSections, hnext]
    | context text | added text | removed text | bare text => simp [readSections]
    | endMark | update path | add path | delete path | stars rest => simp [Line.isBody] at hline

theorem content_concat_blank (body : List Line) :
    content lineNumber (body ++ [.blank]) = (content lineNumber body).map (· ++ [""]) := by
  induction body generalizing lineNumber with
  | nil => rfl
  | cons line body ih =>
    cases line with
    | added text | blank =>
      rw [List.cons_append, content, content, ih]
      cases content (lineNumber + 1) body <;> rfl
    | _ => rfl

/-- A blank line at the end of a file is told from none, unless there is no other line. -/
theorem unlines_concat_blank_iff (texts : List String) :
    Text.unlines (texts ++ [""]) = Text.unlines texts ↔ texts = [] := by
  constructor
  · intro h
    refine Decidable.byContradiction fun hne => ?_
    rw [Text.unlines_append hne (by simp), Text.unlines_singleton, ← String.toList_inj] at h
    simpa using congrArg List.length h
  · rintro rfl
    rfl

/-- A section that updates a file, and nothing else. -/
theorem result_readSections_update {lines : List Line} (h : ∀ line ∈ lines, line.isBody = true)
    (path : String) :
    (readSections bareLines none lineNumber (.update path :: lines)).result =
      if hunks bareLines lines = [] then .error ⟨lineNumber, .noHunks path⟩
      else .ok [.update path (hunks bareLines lines)] := by
  have hbody : body lines = lines := List.takeWhile_eq_self_iff.2 h
  have hafter : afterBody lines = [] := List.dropWhile_eq_nil_iff.2 h
  rw [readSections, hbody, hafter]
  cases hunks bareLines lines <;> simp [readSections, Reading.failed, Reading.after, Reading.result]

/-- A section that adds a file, and nothing else. -/
theorem result_readSections_add {lines : List Line} (h : ∀ line ∈ lines, line.isBody = true)
    (path : String) :
    (readSections bareLines none lineNumber (.add path :: lines)).result =
      (content (lineNumber + 1) lines).map fun texts => [.add path (Text.unlines texts)] := by
  have hbody : body lines = lines := List.takeWhile_eq_self_iff.2 h
  have hafter : afterBody lines = [] := List.dropWhile_eq_nil_iff.2 h
  rw [readSections, hbody, hafter]
  cases content (lineNumber + 1) lines <;>
    simp [readSections, Reading.after, Reading.result, Except.map]

theorem Section.takesBlank_iff {head : String} {rest : List String} :
    Section.TakesBlank ⟨head, rest⟩ ↔
      match Line.ofText head with
      | .update _ => ∃ line ∈ rest, (Line.ofText line).opensHunk = true
      | .add _ => rest ≠ [] ∧ ∀ line ∈ rest, IsContent line
      | _ => False := by
  simp only [Section.TakesBlank, Line.beginsWith_updateMark_iff, Line.beginsWith_addMark_iff]
  cases Line.ofText head <;> simp

/-- **The sections that a blank line at the end changes.** -/
theorem result_section_concat_blank_iff {part : Section}
    (hhead : Text.beginsWith sectionMark part.head = true) (hend : part.head ≠ endMark)
    (hrest : ∀ line ∈ part.rest, Text.beginsWith sectionMark line = false) :
    (readSections bareLines none lineNumber
        (Line.ofText part.head :: (part.rest.map Line.ofText ++ [.blank]))).result =
      (readSections bareLines none lineNumber
        (Line.ofText part.head :: part.rest.map Line.ofText)).result ↔ ¬ part.TakesBlank := by
  obtain ⟨head, rest⟩ := part
  have hbody : ∀ line ∈ rest.map Line.ofText, line.isBody = true := by
    refine List.forall_mem_map.2 fun line hline => ?_
    rw [Line.isBody_ofText, hrest line hline]
    rfl
  have hbody' : ∀ line ∈ rest.map Line.ofText ++ [.blank], line.isBody = true := by
    simpa [or_imp, forall_and, Line.isBody] using hbody
  have hkinds := Line.isBody_ofText head
  rw [Section.takesBlank_iff]
  cases hkind : Line.ofText head with
  | endMark => exact absurd ((Line.ofText_eq_iff rfl).1 hkind) hend
  | update path =>
    have hinj (error : SyntaxError) (list other : List Hunk) :
        ((if list = [] then Except.error error else .ok [Action.update path list]) =
          if other = [] then .error error else .ok [.update path other]) ↔ list = other := by
      cases list <;> cases other <;> simp
    rw [result_readSections_update _ _ hbody, result_readSections_update _ _ hbody', hinj,
      hunks_concat_blank_iff, List.forall_mem_map]
    simp
  | add path =>
    rw [result_readSections_add _ _ hbody, result_readSections_add _ _ hbody',
      content_concat_blank]
    have hcontent := content_eq_ok_iff (lineNumber + 1) rest
    cases htexts : content (lineNumber + 1) (rest.map Line.ofText) with
    | error error =>
      have hnot : ¬ ∀ line ∈ rest, IsContent line := by
        intro h
        simpa using htexts.symm.trans ((hcontent _).2 ⟨h, rfl⟩)
      simp [Except.map, hnot]
    | ok texts =>
      obtain ⟨hall, rfl⟩ := (hcontent _).1 htexts
      simp [Except.map, unlines_concat_blank_iff, iff_true_intro hall]
  | delete path =>
    rw [readSections, readSections, readSections_concat_blank _ _ hbody]
    simp
  | stars rest => simp [readSections]
  | hunk rest | blank | context text | added text | removed text | bare text =>
    simp [hkind, hhead, Line.isBody] at hkinds

end Blank

/-! ### Documents without an end mark -/

theorem exists_last_iff {α : Type} {before : List α} {last : α} {P : List α → Prop}
    {Q : α → Prop} :
    (∃ front back, before ++ [last] = front ++ [back] ∧ P front ∧ Q back) ↔ P before ∧ Q last := by
  constructor
  · rintro ⟨front, back, heq, hfront, hback⟩
    obtain ⟨rfl, hlast⟩ := List.append_inj' heq rfl
    obtain rfl := List.singleton_inj.1 hlast
    exact ⟨hfront, hback⟩
  · rintro ⟨hbefore, hlast⟩
    exact ⟨before, last, rfl, hbefore, hlast⟩

/-- The last section of some lines, and the lines above it. -/
theorem exists_above_last {lines : List String} {before : List Section} {last : Section}
    (h : (cut lines).2 = before ++ [last]) :
    ∃ front, lines = front ++ last.head :: last.rest ∧ cut front = ((cut lines).1, before) ∧
      Text.beginsWith sectionMark last.head = true ∧
      ∀ line ∈ last.rest, Text.beginsWith sectionMark line = false := by
  obtain ⟨happend, habove, hparts⟩ := cut_append lines
  rw [h] at happend hparts
  have hlast := hparts last (by simp)
  refine ⟨_, ?_, cut_append_flatMap habove fun part hpart =>
    hparts part (List.mem_append_left _ hpart), hlast⟩
  simpa using happend.symm

/-- What a blank line at the end of a document changes is its last section, if it is reached. -/
theorem result_sections_concat_blank_iff (bareLines : BareLines) (lineNumber : Nat)
    {lines : List String} (hopen : endMark ∉ lines) :
    (readSections bareLines none lineNumber (lines.map Line.ofText ++ [.blank])).result =
        (readSections bareLines none lineNumber (lines.map Line.ofText)).result ↔
      ¬ ((∀ line ∈ (cut lines).1, IsIdle line) ∧
        ∃ before last, (cut lines).2 = before ++ [last] ∧
          (∀ part ∈ before, ∃ action, part.Means bareLines action) ∧ last.TakesBlank) := by
  rcases List.eq_nil_or_concat' (cut lines).2 with hnone | ⟨before, last, hlast⟩
  · -- Without a section no line begins with three stars.
    obtain ⟨happend, habove, -⟩ := cut_append lines
    have hlines : (cut lines).1 = lines := by simpa [hnone] using happend
    rw [hlines] at habove
    have hbody : ∀ line ∈ lines.map Line.ofText, line.isBody = true := by
      refine List.forall_mem_map.2 fun line hline => ?_
      rw [Line.isBody_ofText, habove line hline]
      rfl
    simp [readSections_concat_blank _ _ hbody, hnone]
  · obtain ⟨front, hlines, hfront, hhead, hrest⟩ := exists_above_last hlast
    have hclosed : endMark ∉ front ∧ endMark ≠ last.head := by
      rw [hlines] at hopen
      exact ⟨fun h => hopen (List.mem_append_left _ h), fun h => hopen (by simp [h])⟩
    have hkinds : .endMark ∉ front.map Line.ofText :=
      fun h => hclosed.1 (endMark_mem_map_ofText_iff.1 h)
    have hstars : (Line.ofText last.head).isBody = false := by
      rw [Line.isBody_ofText, hhead]
      rfl
    have hreached : (∃ list, Asks bareLines none front list) ↔
        (∀ line ∈ (cut lines).1, IsIdle line) ∧
          ∀ part ∈ before, ∃ action, part.Means bareLines action := by
      simp [Asks, untilEnd_eq_self hclosed.1, hfront, exists_forall₂_means_iff]
    have hmap : lines.map Line.ofText =
        front.map Line.ofText ++ Line.ofText last.head :: last.rest.map Line.ofText := by
      conv => lhs; rw [hlines]
      simp
    rw [hmap, List.append_assoc, List.cons_append, readSections_append _ _ _ hkinds (by simpa),
      readSections_append _ _ _ hkinds (by simpa), Reading.result_andThen_eq_iff,
      result_section_concat_blank_iff _ _ hhead hclosed.2.symm hrest,
      Reading.error?_eq_none_iff]
    simp only [readSections_result_eq_ok_iff, hreached]
    rw [hlast, ← not_and, and_assoc, exists_last_iff]

theorem leftOpen_cons_iff {bareLines : BareLines} {first : String} {rest : List String}
    (hopen : endMark ∉ rest) :
    LeftOpen bareLines (first :: rest) ↔
      Text.beginsWith beginMark first = true ∧ (∀ line ∈ (cut rest).1, IsIdle line) ∧
        ∃ before last, (cut rest).2 = before ++ [last] ∧
          (∀ part ∈ before, ∃ action, part.Means bareLines action) ∧ last.TakesBlank := by
  have hscanned : scanned (first :: rest) = rest := by
    rw [scanned_cons, untilEnd_eq_self hopen]
  constructor
  · rintro ⟨⟨_, hfirst, hbegin⟩, hpreamble, hlast⟩
    obtain rfl := Option.some.inj hfirst
    rw [preamble, hscanned] at hpreamble
    rw [sections, hscanned] at hlast
    exact ⟨hbegin, hpreamble, hlast⟩
  · rintro ⟨hbegin, hpreamble, hlast⟩
    exact ⟨⟨first, rfl, hbegin⟩, by rwa [preamble, hscanned], by rwa [sections, hscanned]⟩

/-- A line break at the end of a document that is not closed counts as a blank line. -/
theorem actions_append_lineFeed_eq_iff {settings : Settings} {above : String}
    (hopen : endMark ∉ Text.lines above) (hoptional : settings.requireEndMark = false) :
    actions settings (above ++ "\n") = actions settings above ↔
      ¬ LeftOpen settings.bareLines (Text.lines above) := by
  obtain ⟨first, rest, hlines⟩ := List.exists_cons_of_ne_nil (Text.lines_ne_nil above)
  have hlonger : Text.lines (above ++ "\n") = first :: (rest ++ [""]) := by
    rw [Text.lines_append_break, hlines, List.cons_append]
  have hrest : endMark ∉ rest := by
    rw [hlines] at hopen
    exact List.not_mem_of_not_mem_cons hopen
  have hblank : Line.ofText "" = .blank := by decide
  rw [actions, actions, read_of_lines_cons hlonger, read_of_lines_cons hlines, hlines,
    leftOpen_cons_iff hrest]
  cases hbegin : Text.beginsWith beginMark first with
  | false => simp
  | true =>
    simp only [true_and, if_true]
    rw [← result_sections_concat_blank_iff settings.bareLines 2 hrest]
    simp [missingEnd, hoptional, hblank]

/-- **A document without an end mark.** Where one is not required the document is read as if the
mark stood below a further line break. So it is read as it is with the mark on a line of its own,
actions and errors alike, unless its last line break counts as a blank line of its last section:
one that updates a file and has opened a hunk, or one that adds a file and has content. -/
theorem actions_withEnd_eq_iff {settings : Settings} {text : String}
    (hopen : endMark ∉ Text.lines text) (hoptional : settings.requireEndMark = false) :
    actions settings (text ++ "\n" ++ endMark) = actions settings text ∧
      (actions settings (withEnd text) = actions settings text ↔
        ¬ ∃ above, text = above ++ "\n" ∧
          LeftOpen settings.bareLines (Text.lines above)) := by
  refine ⟨actions_append_endMark hopen hoptional, ?_⟩
  by_cases hbreak : ∃ above, text = above ++ "\n"
  · obtain ⟨above, rfl⟩ := hbreak
    have hopen' : endMark ∉ Text.lines above := by
      rw [Text.lines_append_break] at hopen
      exact fun hmem => hopen (List.mem_append_left _ hmem)
    rw [withEnd_append_lineFeed, actions_append_endMark hopen' hoptional, eq_comm,
      actions_append_lineFeed_eq_iff hopen' hoptional]
    simp
  · rw [withEnd_of_ne fun above h => hbreak ⟨above, h⟩]
    refine iff_of_true (actions_append_endMark hopen hoptional) ?_
    rintro ⟨above, h, -⟩
    exact hbreak ⟨above, h⟩

/-- A file is added by a document whose last line is ended and that is not closed. The end of that
line is one more line of the file. -/
theorem actions_withEnd_eq_iff_added_line :
    let above := Text.unlines ["*** Begin Patch", "*** Delete File: b", "*** Add File: a", "+x"]
    let text := above ++ "\n"
    endMark ∉ Text.lines text ∧ actions {} (text ++ "\n" ++ endMark) = actions {} text ∧
      actions {} (withEnd text) ≠ actions {} text := by
  intro above text
  have hopen : endMark ∉ Text.lines text := by decide
  obtain ⟨hbelow, hiff⟩ := @actions_withEnd_eq_iff {} text hopen rfl
  refine ⟨hopen, hbelow, fun hsame => hiff.1 hsame ⟨above, rfl, ?_⟩⟩
  have hpreamble : preamble (Text.lines above) = [] := by decide
  have hsections : sections (Text.lines above) =
      [⟨"*** Delete File: b", []⟩] ++ [⟨"*** Add File: a", ["+x"]⟩] := by decide
  refine ⟨⟨"*** Begin Patch", by decide, by decide⟩, by simp [hpreamble], _, _, hsections, ?_, ?_⟩
  · refine List.forall_mem_singleton.2 ⟨.delete "b", ?_⟩
    exact @Section.Means.delete _ "b" [] (by simp)
  · exact .inr ⟨by decide, by simp, List.forall_mem_singleton.2 (.inr (by decide))⟩

/-- The line break at the end of a document that is not closed is read as a line that the file
keeps, so that the document asks for another hunk than with the mark. -/
theorem not_actions_withEnd_kept_line :
    ¬ ∀ (settings : Settings) (text : String), settings.requireEndMark = false →
      endMark ∉ Text.lines text → actions settings (withEnd text) = actions settings text := by
  intro h
  have hsame := h {} "*** Begin Patch\n*** Update File: a\n-x\n+y\n" rfl (by decide)
  have hclosed : actions {} (withEnd "*** Begin Patch\n*** Update File: a\n-x\n+y\n") =
      .ok [.update "a" [⟨none, [.remove "x", .add "y"]⟩]] := by
    decide +kernel
  have hopen : actions {} "*** Begin Patch\n*** Update File: a\n-x\n+y\n" =
      .ok [.update "a" [⟨none, [.remove "x", .add "y", .context ""]⟩]] := by
    decide +kernel
  rw [hclosed, hopen] at hsame
  simp at hsame

end LinePatch.Document
