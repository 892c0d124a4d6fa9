import LinePatch.Proofs.Document.Append
import LinePatch.Proofs.Document.Groups
import Mathlib.Data.List.Forall2
import Mathlib.Data.List.TakeWhile

/-!
# The grammar of documents

What a document is, said without reading it: the lines between the opening one and the end mark
are cut before every line that begins with three stars. What stands above the first cut means
nothing, and each piece below it is a section, a head with the lines under it. The hunks of a
section that updates a file are the groups of its lines. A text is accepted exactly when every piece
is in order, and then it asks for one action per section.

## Main definitions

* `Document.endIndex`, `Document.scanned`: where the end mark stands, and the lines above it.
* `Document.Section`, `Document.cut`: the pieces of the scanned lines.
* `Document.Section.Means`: the action that a section asks for.
* `Document.IsDocument`: the lines of a document.

## Main results

* `Document.cut_append`: the pieces are all of the lines.
* `Document.readSections_result_eq_ok_iff`: reading finds the pieces one by one.
* `Document.actions_eq_ok_iff_isDocument`: the accepted texts, and what they ask for.
-/

namespace LinePatch.Document

/-! ### Pieces -/

/-- The least index after the opening line at which the end mark stands, or the number of lines if
it does not stand anywhere. -/
def endIndex (lines : List String) : Nat :=
  lines.tail.idxOf endMark + 1

/-- The lines between the opening one and the end mark. -/
def scanned (lines : List String) : List String :=
  (lines.take (endIndex lines)).drop 1

/-- The lines above the end mark, or all of them if it does not stand anywhere. -/
def untilEnd (lines : List String) : List String :=
  lines.takeWhile (· ≠ endMark)

/-- A head, and the lines under it. -/
structure Section where
  head : String
  rest : List String
  deriving DecidableEq, Repr

/-- Cuts lines before every line that begins with three stars: what stands above the first of
these, and the sections that they begin. -/
def cut : List String → List String × List Section
  | [] => ([], [])
  | line :: lines =>
    let (above, sections) := cut lines
    if Text.beginsWith sectionMark line then ([], ⟨line, above⟩ :: sections)
    else (line :: above, sections)

/-- The lines of a document above its first section. -/
def preamble (lines : List String) : List String :=
  (cut (scanned lines)).1

/-- The sections of a document. -/
def sections (lines : List String) : List Section :=
  (cut (scanned lines)).2

/-- A line that means nothing outside the sections that update and add files. -/
def IsIdle (line : String) : Prop :=
  line = "" ∨ Text.beginsWith hunkMark line = true

/-- A line that a section that adds a file can have. -/
def IsContent (line : String) : Prop :=
  line = "" ∨ Text.beginsWith "+" line = true

/-- The line of a file that a line of a section adds to it: what follows the plus, or nothing. -/
def contentLine (line : String) : String :=
  (Text.after? "+" line).getD ""

/-- The action that a section asks for. -/
inductive Section.Means (bareLines : BareLines) : Section → Action → Prop
  | update {path : String} {rest : List String} (some : groups bareLines rest ≠ []) :
      Means bareLines ⟨updateMark ++ path, rest⟩ (.update path (groups bareLines rest))
  | add {path : String} {rest : List String} (content : ∀ line ∈ rest, IsContent line) :
      Means bareLines ⟨addMark ++ path, rest⟩ (.add path (Text.unlines (rest.map contentLine)))
  | delete {path : String} {rest : List String} (idle : ∀ line ∈ rest, IsIdle line) :
      Means bareLines ⟨deleteMark ++ path, rest⟩ (.delete path)

/-- The lines of a document. -/
structure IsDocument (settings : Settings) (lines : List String) : Prop where
  opened : ∃ first, lines.head? = some first ∧ Text.beginsWith beginMark first = true
  preamble : ∀ line ∈ preamble lines, IsIdle line
  head : ∀ part ∈ sections lines, Text.beginsWith updateMark part.head = true ∨
    Text.beginsWith addMark part.head = true ∨ Text.beginsWith deleteMark part.head = true
  update : ∀ part ∈ sections lines, Text.beginsWith updateMark part.head = true →
    groups settings.bareLines part.rest ≠ []
  add : ∀ part ∈ sections lines, Text.beginsWith addMark part.head = true →
    ∀ line ∈ part.rest, IsContent line
  delete : ∀ part ∈ sections lines, Text.beginsWith deleteMark part.head = true →
    ∀ line ∈ part.rest, IsIdle line
  closed : settings.requireEndMark = true → endIndex lines < lines.length

theorem scanned_cons (first : String) (lines : List String) :
    scanned (first :: lines) = untilEnd lines := by
  have htake (list : List String) : list.take (list.idxOf endMark) = untilEnd list := by
    induction list with
    | nil => rfl
    | cons line list ih =>
      by_cases h : line = endMark
      · simp [untilEnd, h]
      · simpa [untilEnd, h, List.idxOf_cons_ne _ h] using ih
  simp [scanned, endIndex, htake]

@[simp] theorem untilEnd_nil : untilEnd [] = [] := rfl

@[simp] theorem untilEnd_cons_endMark (lines : List String) :
    untilEnd (endMark :: lines) = [] := by
  simp [untilEnd]

theorem untilEnd_cons_of_ne {line : String} (h : line ≠ endMark) (lines : List String) :
    untilEnd (line :: lines) = line :: untilEnd lines := by
  simp [untilEnd, h]

theorem endIndex_lt_iff (first : String) (lines : List String) :
    endIndex (first :: lines) < (first :: lines).length ↔ endMark ∈ lines := by
  simp [endIndex, List.idxOf_lt_length_iff]

theorem cut_cons_of_beginsWith {line : String} (h : Text.beginsWith sectionMark line = true)
    (lines : List String) :
    cut (line :: lines) = ([], ⟨line, (cut lines).1⟩ :: (cut lines).2) := by
  simp [cut, h]

theorem cut_cons_of_not_beginsWith {line : String}
    (h : Text.beginsWith sectionMark line = false) (lines : List String) :
    cut (line :: lines) = (line :: (cut lines).1, (cut lines).2) := by
  simp [cut, h]

/-- **The pieces are all of the lines, in their order**, and only the heads of sections begin with
three stars. -/
theorem cut_append (lines : List String) :
    (cut lines).1 ++ (cut lines).2.flatMap (fun part => part.head :: part.rest) = lines ∧
      (∀ line ∈ (cut lines).1, Text.beginsWith sectionMark line = false) ∧
      ∀ part ∈ (cut lines).2, Text.beginsWith sectionMark part.head = true ∧
        ∀ line ∈ part.rest, Text.beginsWith sectionMark line = false := by
  induction lines with
  | nil => simp [cut]
  | cons line lines ih =>
    obtain ⟨happend, habove, hparts⟩ := ih
    cases h : Text.beginsWith sectionMark line with
    | true =>
      rw [cut_cons_of_beginsWith h]
      refine ⟨by simp [happend], by simp, ?_⟩
      exact List.forall_mem_cons.2 ⟨⟨h, habove⟩, hparts⟩
    | false =>
      rw [cut_cons_of_not_beginsWith h]
      refine ⟨by simp [happend], ?_, hparts⟩
      exact List.forall_mem_cons.2 ⟨h, habove⟩

theorem cut_append_of_not_beginsWith {above : List String}
    (h : ∀ line ∈ above, Text.beginsWith sectionMark line = false) (lines : List String) :
    cut (above ++ lines) = (above ++ (cut lines).1, (cut lines).2) := by
  induction above with
  | nil => rfl
  | cons line above ih =>
    obtain ⟨hline, habove⟩ := List.forall_mem_cons.1 h
    rw [List.cons_append, cut_cons_of_not_beginsWith hline, ih habove]
    rfl

/-- Pieces that are put together are cut where they were joined. -/
theorem cut_append_flatMap {above : List String} {parts : List Section}
    (habove : ∀ line ∈ above, Text.beginsWith sectionMark line = false)
    (hparts : ∀ part ∈ parts, Text.beginsWith sectionMark part.head = true ∧
      ∀ line ∈ part.rest, Text.beginsWith sectionMark line = false) :
    cut (above ++ parts.flatMap fun part => part.head :: part.rest) = (above, parts) := by
  induction parts generalizing above with
  | nil => simpa [cut] using cut_append_of_not_beginsWith habove []
  | cons part parts ih =>
    obtain ⟨⟨hhead, hrest⟩, hlater⟩ := List.forall_mem_cons.1 hparts
    rw [cut_append_of_not_beginsWith habove, List.flatMap_cons, List.cons_append,
      cut_cons_of_beginsWith hhead, ih hrest hlater, List.append_nil]

theorem untilEnd_eq_self {lines : List String} (h : endMark ∉ lines) : untilEnd lines = lines :=
  List.takeWhile_eq_self_iff.2 fun line hline => by
    simpa using fun heq : line = endMark => h (heq ▸ hline)

theorem untilEnd_append_endMark {above : List String} (h : endMark ∉ above) (below : List String) :
    untilEnd (above ++ endMark :: below) = above := by
  rw [untilEnd, List.takeWhile_append_of_pos fun line hline => ?_]
  · simp
  · simpa using fun heq : line = endMark => h (heq ▸ hline)

theorem take_untilEnd (lines : List String) (count : Nat) :
    (untilEnd lines).take count = untilEnd (lines.take count) :=
  List.take_takeWhile

/-- A section of a document is made of lines of the document. -/
theorem mem_of_mem_sections {lines : List String} {part : Section} (h : part ∈ sections lines)
    {line : String} (hline : line ∈ part.head :: part.rest) : line ∈ lines := by
  have hscanned : line ∈ scanned lines := by
    rw [← (cut_append (scanned lines)).1]
    exact List.mem_append_right _ (List.mem_flatMap.2 ⟨part, h, hline⟩)
  exact List.mem_of_mem_take (List.mem_of_mem_drop hscanned)

/-- A line that only resembles the end mark is the head of a section. -/
example : cut ["", "*** Add File: a", "+x", "*** End Patch "] =
    ([""], [⟨"*** Add File: a", ["+x"]⟩, ⟨"*** End Patch ", []⟩]) := by
  decide

/-! ### What the kinds of lines say about the pieces -/

theorem isIdle_iff {line : String} :
    IsIdle line ↔ Line.ofText line = .blank ∨ ∃ rest, Line.ofText line = .hunk rest :=
  or_congr (@Line.ofText_eq_iff .blank rfl line).symm
    (Text.beginsWith_iff.trans
      (exists_congr fun rest => (@Line.ofText_eq_iff (.hunk rest) rfl line).symm))

theorem isContent_iff {line : String} :
    IsContent line ↔ Line.ofText line = .blank ∨ ∃ text, Line.ofText line = .added text :=
  or_congr (@Line.ofText_eq_iff .blank rfl line).symm
    (Text.beginsWith_iff.trans
      (exists_congr fun text => (@Line.ofText_eq_iff (.added text) rfl line).symm))

/-- The content of a body, and the bodies that have one. -/
theorem content_eq_ok_iff (lineNumber : Nat) (rest texts : List String) :
    content lineNumber (rest.map Line.ofText) = .ok texts ↔
      (∀ line ∈ rest, IsContent line) ∧ texts = rest.map contentLine := by
  induction rest generalizing lineNumber texts with
  | nil => simp [content, eq_comm]
  | cons line rest ih =>
    have hmap (text : String) :
        (content (lineNumber + 1) (rest.map Line.ofText)).map (text :: ·) = .ok texts ↔
          ∃ later, content (lineNumber + 1) (rest.map Line.ofText) = .ok later ∧
            text :: later = texts := by
      cases content (lineNumber + 1) (rest.map Line.ofText) <;> simp [Except.map]
    rw [List.map_cons, List.forall_mem_cons, isContent_iff]
    cases h : Line.ofText line with
    | added text =>
      have hline : contentLine line = text := by
        rw [(Line.ofText_eq_iff rfl).1 h]
        simp [contentLine, Line.text]
      simp [content, hmap, ih, hline, eq_comm, and_assoc]
    | blank =>
      have hline : contentLine line = "" := by
        rw [(Line.ofText_eq_iff rfl).1 h]
        rfl
      simp [content, hmap, ih, hline, eq_comm, and_assoc]
    | _ => simp [content]

theorem Reading.result_after_eq_ok_iff {reading : Reading} {action : Action}
    {list : List Action} :
    (reading.after action).result = .ok list ↔
      ∃ later, list = action :: later ∧ reading.result = .ok later := by
  cases h : reading.error? with
  | none => simp [Reading.after, Reading.result, h, eq_comm]
  | some error => simp [Reading.after, Reading.result, h]

/-! ### Sections -/

/-- What a section asks for, told from the kind of its head. -/
theorem Section.means_iff {bareLines : BareLines} {head : String} {rest : List String}
    {action : Action} :
    Section.Means bareLines ⟨head, rest⟩ action ↔
      match Line.ofText head with
      | .update path =>
        groups bareLines rest ≠ [] ∧ action = .update path (groups bareLines rest)
      | .add path => (∀ line ∈ rest, IsContent line) ∧
          action = .add path (Text.unlines (rest.map contentLine))
      | .delete path => (∀ line ∈ rest, IsIdle line) ∧ action = .delete path
      | _ => False := by
  constructor
  · intro h
    cases h with
    | @update path _ some =>
      rw [show Line.ofText (updateMark ++ path) = .update path from
        @Line.ofText_text (.update path) rfl]
      exact ⟨some, rfl⟩
    | @add path _ content =>
      rw [show Line.ofText (addMark ++ path) = .add path from @Line.ofText_text (.add path) rfl]
      exact ⟨content, rfl⟩
    | @delete path _ idle =>
      rw [show Line.ofText (deleteMark ++ path) = .delete path from
        @Line.ofText_text (.delete path) rfl]
      exact ⟨idle, rfl⟩
  · have htext := Line.text_ofText head
    intro h
    split at h
    · rename_i path hhead
      rw [hhead, Line.text] at htext
      obtain ⟨some, rfl⟩ := h
      exact htext ▸ .update some
    · rename_i path hhead
      rw [hhead, Line.text] at htext
      obtain ⟨content, rfl⟩ := h
      exact htext ▸ .add content
    · rename_i path hhead
      rw [hhead, Line.text] at htext
      obtain ⟨idle, rfl⟩ := h
      exact htext ▸ .delete idle
    · exact h.elim

/-- What lines that stand outside every section ask for: the ones above the first section mean
nothing, every section means an action, and the end mark is there or may be missing. -/
def Asks (bareLines : BareLines) (atEnd : Option SyntaxError) (lines : List String)
    (list : List Action) : Prop :=
  (∀ line ∈ (cut (untilEnd lines)).1, IsIdle line) ∧
    List.Forall₂ (Section.Means bareLines) (cut (untilEnd lines)).2 list ∧
    (endMark ∈ lines ∨ atEnd = none)

section Asks

variable {bareLines : BareLines} {atEnd : Option SyntaxError} {line : String}
  {lines : List String} {list : List Action}

theorem asks_nil_iff : Asks bareLines atEnd [] list ↔ list = [] ∧ atEnd = none := by
  simp [Asks, cut]

theorem asks_cons_endMark_iff : Asks bareLines atEnd (endMark :: lines) list ↔ list = [] := by
  simp [Asks, cut]

/-- A line outside every section that begins none has to mean nothing. -/
theorem asks_cons_iff_of_not_beginsWith (h : Text.beginsWith sectionMark line = false) :
    Asks bareLines atEnd (line :: lines) list ↔
      IsIdle line ∧ Asks bareLines atEnd lines list := by
  have hend : line ≠ endMark := by
    rintro rfl
    exact absurd h (by decide)
  rw [Asks, untilEnd_cons_of_ne hend, cut_cons_of_not_beginsWith h, List.forall_mem_cons, Asks,
    and_assoc]
  simp [Ne.symm hend]

/-- A line that begins with three stars has to be the head of a section. -/
theorem asks_cons_iff_of_beginsWith (h : Text.beginsWith sectionMark line = true)
    (hend : line ≠ endMark) :
    Asks bareLines atEnd (line :: lines) list ↔
      ∃ action later, list = action :: later ∧
        Section.Means bareLines ⟨line, (cut (untilEnd lines)).1⟩ action ∧
        List.Forall₂ (Section.Means bareLines) (cut (untilEnd lines)).2 later ∧
        (endMark ∈ lines ∨ atEnd = none) := by
  rw [Asks, untilEnd_cons_of_ne hend, cut_cons_of_beginsWith h, List.forall₂_cons_left_iff]
  constructor
  · rintro ⟨-, ⟨action, later, haction, hlater, rfl⟩, hclosed⟩
    refine ⟨action, later, rfl, haction, hlater, ?_⟩
    simpa [Ne.symm hend] using hclosed
  · rintro ⟨action, later, rfl, haction, hlater, hclosed⟩
    refine ⟨by simp, ⟨action, later, haction, hlater, rfl⟩, ?_⟩
    exact hclosed.imp_left (List.mem_cons_of_mem line)

/-- The body of a section below its head is the first of the pieces, and what comes after it asks
for what the other pieces ask for. -/
theorem body_map_ofText (bareLines : BareLines) (atEnd : Option SyntaxError)
    (lines : List String) :
    body (lines.map Line.ofText) = (cut (untilEnd lines)).1.map Line.ofText ∧
      ∃ rest : List String, afterBody (lines.map Line.ofText) = rest.map Line.ofText ∧
        rest.length ≤ lines.length ∧
        ∀ list, Asks bareLines atEnd rest list ↔
          List.Forall₂ (Section.Means bareLines) (cut (untilEnd lines)).2 list ∧
            (endMark ∈ lines ∨ atEnd = none) := by
  induction lines with
  | nil => exact ⟨rfl, [], rfl, Nat.le_refl _, by simp [Asks, cut]⟩
  | cons line lines ih =>
    cases h : Text.beginsWith sectionMark line with
    | true =>
      have hbody : (Line.ofText line).isBody = false := by rw [Line.isBody_ofText, h]; rfl
      have hcut : (cut (untilEnd (line :: lines))).1 = [] := by
        by_cases hend : line = endMark
        · simp [hend, cut]
        · rw [untilEnd_cons_of_ne hend, cut_cons_of_beginsWith h]
      refine ⟨?_, line :: lines, ?_, Nat.le_refl _, ?_⟩
      · rw [hcut]
        simp [body, hbody]
      · simp [afterBody, hbody]
      · simp [Asks, hcut]
    | false =>
      have hbody : (Line.ofText line).isBody = true := by rw [Line.isBody_ofText, h]; rfl
      have hend : line ≠ endMark := by
        rintro rfl
        exact absurd h (by decide)
      obtain ⟨hlines, rest, hafter, hlength, hrest⟩ := ih
      rw [untilEnd_cons_of_ne hend, cut_cons_of_not_beginsWith h]
      refine ⟨?_, rest, ?_, Nat.le_succ_of_le hlength, ?_⟩
      · rw [List.map_cons, List.map_cons, ← hlines]
        simp [body, hbody]
      · rw [List.map_cons, ← hafter]
        simp [afterBody, hbody]
      · simp [hrest, Ne.symm hend]

end Asks

/-- **Reading finds the pieces one by one.** From outside every section on, lines are read without
an error exactly when they ask for actions, and these are what is read. -/
theorem readSections_result_eq_ok_iff (bareLines : BareLines) (atEnd : Option SyntaxError)
    (lineNumber : Nat) (lines : List String) (list : List Action) :
    (readSections bareLines atEnd lineNumber (lines.map Line.ofText)).result = .ok list ↔
      Asks bareLines atEnd lines list := by
  -- A section takes several lines at once, so the induction is on their number.
  induction hn : lines.length using Nat.strongRecOn generalizing lineNumber lines list with
  | ind n ih =>
    subst hn
    rcases lines with _ | ⟨line, lines⟩
    · cases atEnd <;> simp [readSections, Reading.result, asks_nil_iff, eq_comm]
    by_cases hend : line = endMark
    · subst hend
      rw [List.map_cons, show Line.ofText endMark = .endMark from @Line.ofText_text .endMark rfl]
      simp [readSections, Reading.result, asks_cons_endMark_iff, eq_comm]
    have hnext (lineNumber : Nat) (list : List Action) :=
      ih lines.length (Nat.lt_succ_self _) lineNumber lines list rfl
    have hkinds := Line.isBody_ofText line
    rw [List.map_cons]
    cases hbegins : Text.beginsWith sectionMark line with
    | false =>
      rw [asks_cons_iff_of_not_beginsWith hbegins, isIdle_iff]
      cases hkind : Line.ofText line with
      | blank | hunk rest => simp [readSections, hnext]
      | context text | added text | removed text | bare text =>
        simp [readSections, Reading.failed, Reading.result]
      | endMark | update path | add path | delete path | stars rest =>
        simp [hkind, hbegins, Line.isBody] at hkinds
    | true =>
      obtain ⟨hbody, rest, hafter, hlength, hrest⟩ := body_map_ofText bareLines atEnd lines
      have hsection (lineNumber : Nat) (list : List Action) :=
        ih rest.length (Nat.lt_succ_of_le hlength) lineNumber rest list rfl
      rw [asks_cons_iff_of_beginsWith hbegins hend]
      simp only [Section.means_iff]
      cases hkind : Line.ofText line with
      | endMark => exact absurd ((Line.ofText_eq_iff rfl).1 hkind) hend
      | update path =>
        rw [readSections, hbody, hunks_map_ofText, hafter]
        cases groups bareLines (cut (untilEnd lines)).1 with
        | nil => simp [Reading.failed, Reading.result]
        | cons hunk more => simp [Reading.result_after_eq_ok_iff, hsection, hrest]
      | add path =>
        rw [readSections, hbody, hafter]
        have hcontent := content_eq_ok_iff (lineNumber + 1) (cut (untilEnd lines)).1
        cases htexts : content (lineNumber + 1) ((cut (untilEnd lines)).1.map Line.ofText) with
        | error error =>
          have hnot : ¬ ∀ line ∈ (cut (untilEnd lines)).1, IsContent line := by
            intro h
            simpa using htexts.symm.trans ((hcontent _).2 ⟨h, rfl⟩)
          simp [Reading.result, hnot]
        | ok texts =>
          obtain ⟨hall, rfl⟩ := (hcontent _).1 htexts
          simp [Reading.result_after_eq_ok_iff, hsection, hrest, iff_true_intro hall]
      | delete path =>
        simp [readSections, Reading.result_after_eq_ok_iff, hnext, Asks, and_assoc]
      | stars rest => simp [readSections, Reading.failed, Reading.result]
      | hunk rest | blank | context text | added text | removed text | bare text =>
        simp [hkind, hbegins, Line.isBody] at hkinds

/-! ### Documents -/

theorem Section.exists_means_iff {bareLines : BareLines} {part : Section} :
    (∃ action, Section.Means bareLines part action) ↔
      (Text.beginsWith updateMark part.head = true ∨ Text.beginsWith addMark part.head = true ∨
        Text.beginsWith deleteMark part.head = true) ∧
      (Text.beginsWith updateMark part.head = true → groups bareLines part.rest ≠ []) ∧
      (Text.beginsWith addMark part.head = true → ∀ line ∈ part.rest, IsContent line) ∧
      (Text.beginsWith deleteMark part.head = true → ∀ line ∈ part.rest, IsIdle line) := by
  obtain ⟨head, rest⟩ := part
  simp only [Section.means_iff, Line.beginsWith_updateMark_iff, Line.beginsWith_addMark_iff,
    Line.beginsWith_deleteMark_iff]
  cases Line.ofText head <;> simp

/-- An action that sections mean is the meaning of one of them. -/
theorem exists_means_of_mem {bareLines : BareLines} {parts : List Section} {list : List Action}
    (h : List.Forall₂ (Section.Means bareLines) parts list) {action : Action}
    (hmem : action ∈ list) : ∃ part ∈ parts, Section.Means bareLines part action := by
  induction h with
  | nil => simp at hmem
  | @cons part first parts later hfirst _ ih =>
    rcases List.mem_cons.1 hmem with rfl | hmem
    · exact ⟨part, List.mem_cons_self, hfirst⟩
    · obtain ⟨other, hother, hmeans⟩ := ih hmem
      exact ⟨other, List.mem_cons_of_mem _ hother, hmeans⟩

theorem exists_forall₂_means_iff {bareLines : BareLines} {parts : List Section} :
    (∃ list, List.Forall₂ (Section.Means bareLines) parts list) ↔
      ∀ part ∈ parts, ∃ action, Section.Means bareLines part action := by
  induction parts with
  | nil => simp
  | cons part parts ih =>
    rw [List.forall_mem_cons, ← ih]
    constructor
    · rintro ⟨list, h⟩
      obtain ⟨action, later, haction, hlater, -⟩ := List.forall₂_cons_left_iff.1 h
      exact ⟨⟨action, haction⟩, later, hlater⟩
    · rintro ⟨⟨action, haction⟩, later, hlater⟩
      exact ⟨action :: later, .cons haction hlater⟩

/-- The actions of a text, in terms of its pieces. -/
theorem actions_eq_ok_iff (settings : Settings) (text : String) (list : List Action) :
    actions settings text = .ok list ↔
      (∃ first, (Text.lines text).head? = some first ∧ Text.beginsWith beginMark first = true) ∧
      (∀ line ∈ preamble (Text.lines text), IsIdle line) ∧
      List.Forall₂ (Section.Means settings.bareLines) (sections (Text.lines text)) list ∧
      (settings.requireEndMark = true →
        endIndex (Text.lines text) < (Text.lines text).length) := by
  obtain ⟨first, rest, hlines⟩ := List.exists_cons_of_ne_nil (Text.lines_ne_nil text)
  rw [actions, read_of_lines_cons hlines, hlines, preamble, sections, scanned_cons,
    endIndex_lt_iff]
  cases hbegin : Text.beginsWith beginMark first with
  | false => simp [hbegin, Reading.failed, Reading.result]
  | true =>
    simp only [if_true, readSections_result_eq_ok_iff, Asks, missingEnd]
    cases settings.requireEndMark <;> simp [hbegin]

/-- **A text is accepted exactly when its lines are those of a document, and then it asks for one
action per section, in order.** -/
theorem actions_eq_ok_iff_isDocument (settings : Settings) (text : String) :
    ((∃ list, actions settings text = .ok list) ↔ IsDocument settings (Text.lines text)) ∧
      ∀ list, actions settings text = .ok list ↔ IsDocument settings (Text.lines text) ∧
        List.Forall₂ (Section.Means settings.bareLines) (sections (Text.lines text)) list := by
  have hexists : (∃ list, actions settings text = .ok list) ↔
      IsDocument settings (Text.lines text) := by
    simp only [actions_eq_ok_iff, exists_and_left, exists_and_right, exists_forall₂_means_iff,
      Section.exists_means_iff, forall_and]
    constructor
    · rintro ⟨hopened, hpreamble, ⟨hhead, hupdate, hadd, hdelete⟩, hclosed⟩
      exact ⟨hopened, hpreamble, hhead, hupdate, hadd, hdelete, hclosed⟩
    · rintro ⟨hopened, hpreamble, hhead, hupdate, hadd, hdelete, hclosed⟩
      exact ⟨hopened, hpreamble, ⟨hhead, hupdate, hadd, hdelete⟩, hclosed⟩
  refine ⟨hexists, fun list => ⟨fun h => ?_, fun ⟨hdocument, hsections⟩ => ?_⟩⟩
  · exact ⟨hexists.1 ⟨list, h⟩, ((actions_eq_ok_iff settings text list).1 h).2.2.1⟩
  · exact (actions_eq_ok_iff settings text list).2
      ⟨hdocument.opened, hdocument.preamble, hsections, hdocument.closed⟩

end LinePatch.Document
