import LinePatch.Proofs.Document.Grammar
import LinePatch.Proofs.Document.Groups

/-!
# The first offence of a document

What is wrong with a line is told by the line, the head of the section that it stands in and, where
it is itself the head of an update, by the lines under it. So each line can be judged where it
stands, without reading those above it, and the first of the lines that offend is told by the lines
down to it, or down to the end of its section.

## Main definitions

* `Document.Offends`: what is wrong with a line in a section.
* `Document.OffenceAt`, `Document.IsFirstOffence`: what is wrong with the line at an index, and the
  first line with which anything is.
* `Document.span`: how many lines tell an offence.

## Main results

* `Document.offenceAt_append_iff`: lines above a section do not change what is wrong in it.
* `Document.OffenceAt.unique`: one thing is wrong with a line at most.
* `Document.IsFirstOffence.congr`: the first offence is told by the lines in its span.
-/

namespace LinePatch.Document

/-! ### Lines that offend -/

/-- The last of the lines that begins with three stars. -/
def lastHead? (lines : List String) : Option String :=
  (lines.filter (Text.beginsWith sectionMark)).getLast?

/-- What is wrong with a line. It stands in the section with this head, or above every section if
there is no head, and `below` are the lines under it up to the next head. -/
inductive Offends (bareLines : BareLines) (head? : Option String) (line : String)
    (below : List String) : Offence → Prop
  /-- A line that means nothing stands above every section or in one that deletes a file. -/
  | stray (plain : Text.beginsWith sectionMark line = false)
      (outside : ∀ head ∈ head?, Text.beginsWith deleteMark head = true) (idle : ¬ IsIdle line) :
      Offends bareLines head? line below (.strayLine line)
  /-- A line begins with three stars and is no head of a section. -/
  | head (stars : Text.beginsWith sectionMark line = true)
      (update : Text.beginsWith updateMark line = false)
      (add : Text.beginsWith addMark line = false)
      (delete : Text.beginsWith deleteMark line = false) :
      Offends bareLines head? line below (.strayLine line)
  /-- A line that is no content stands in a section that adds a file. -/
  | content (plain : Text.beginsWith sectionMark line = false)
      (inside : ∃ head ∈ head?, Text.beginsWith addMark head = true)
      (content : ¬ IsContent line) :
      Offends bareLines head? line below (.badContent line)
  /-- A section that updates a file has no hunk. -/
  | update {path : String} (head : line = updateMark ++ path) (none : groups bareLines below = []) :
      Offends bareLines head? line below (.noHunks path)

/-- What is wrong with the line that has this index, of lines that begin above every section. -/
def OffenceAt (bareLines : BareLines) (lines : List String) (index : Nat) (offence : Offence) :
    Prop :=
  ∃ line, lines[index]? = some line ∧
    Offends bareLines (lastHead? (lines.take index)) line (sectionLines lines (index + 1)) offence

/-- The first line that offends has this index. -/
structure IsFirstOffence (bareLines : BareLines) (lines : List String) (index : Nat)
    (offence : Offence) : Prop where
  offends : OffenceAt bareLines lines index offence
  none_above : ∀ earlier < index, ∀ other, ¬ OffenceAt bareLines lines earlier other

section Offends

variable {bareLines : BareLines} {head? : Option String} {line : String} {below : List String}
  {offence : Offence}

theorem beginsWith_sectionMark_eq (line : String) :
    Text.beginsWith sectionMark line = !(Line.ofText line).isBody := by
  rw [Line.isBody_ofText, Bool.not_not]

theorem not_delete_of_add {head : String} (h : Text.beginsWith addMark head = true) :
    ¬ Text.beginsWith deleteMark head = true := by
  rw [Line.beginsWith_addMark_iff] at h
  rw [Line.beginsWith_deleteMark_iff]
  obtain ⟨path, hpath⟩ := h
  simp [hpath]

theorem beginsWith_sectionMark_of_kind {kind : Line} (h : Line.ofText line = kind)
    (hbody : kind.isBody = false) : Text.beginsWith sectionMark line = true := by
  rw [beginsWith_sectionMark_eq, h, hbody]
  rfl

/-- What is wrong with a line that continues a section depends on the section. -/
theorem offends_iff_of_plain (h : Text.beginsWith sectionMark line = false) :
    Offends bareLines head? line below offence ↔
      ((∀ head ∈ head?, Text.beginsWith deleteMark head = true) ∧ ¬ IsIdle line ∧
          offence = .strayLine line) ∨
        ((∃ head ∈ head?, Text.beginsWith addMark head = true) ∧ ¬ IsContent line ∧
          offence = .badContent line) := by
  constructor
  · intro hoffends
    cases hoffends with
    | stray plain outside idle => exact .inl ⟨outside, idle, rfl⟩
    | head stars => exact absurd (h.symm.trans stars) Bool.false_ne_true
    | content plain inside content => exact .inr ⟨inside, content, rfl⟩
    | @update path head none =>
      have hkind : Line.ofText line = .update path := (Line.ofText_eq_iff rfl).2 head
      rw [beginsWith_sectionMark_eq, hkind] at h
      exact nomatch h
  · rintro (⟨outside, idle, rfl⟩ | ⟨inside, content, rfl⟩)
    · exact .stray h outside idle
    · exact .content h inside content

/-- What is wrong with a line that ends a section depends on the line and what is below it. -/
theorem offends_iff_of_stars (h : Text.beginsWith sectionMark line = true) :
    Offends bareLines head? line below offence ↔
      match Line.ofText line with
      | .update path => groups bareLines below = [] ∧ offence = .noHunks path
      | .add _ | .delete _ => False
      | _ => offence = .strayLine line := by
  constructor
  · intro hoffends
    cases hoffends with
    | stray plain => exact absurd (plain.symm.trans h) Bool.false_ne_true
    | head stars update add delete =>
      rw [← Bool.not_eq_true] at update add delete
      rw [Line.beginsWith_updateMark_iff] at update
      rw [Line.beginsWith_addMark_iff] at add
      rw [Line.beginsWith_deleteMark_iff] at delete
      cases hkind : Line.ofText line <;> simp_all
    | content plain => exact absurd (plain.symm.trans h) Bool.false_ne_true
    | @update path head none =>
      rw [show Line.ofText line = .update path from (Line.ofText_eq_iff rfl).2 head]
      exact ⟨none, rfl⟩
  · intro hoffence
    have hkinds := beginsWith_sectionMark_eq line
    cases hkind : Line.ofText line with
    | update path =>
      rw [hkind] at hoffence
      obtain ⟨none, rfl⟩ := hoffence
      exact .update ((Line.ofText_eq_iff rfl).1 hkind) none
    | add path | delete path =>
      rw [hkind] at hoffence
      exact hoffence.elim
    | endMark | stars rest =>
      rw [hkind] at hoffence
      obtain rfl := hoffence
      refine .head h ?_ ?_ ?_ <;>
        simp [← Bool.not_eq_true, Line.beginsWith_updateMark_iff, Line.beginsWith_addMark_iff,
          Line.beginsWith_deleteMark_iff, hkind]
    | _ =>
      simp [h, hkind, Line.isBody] at hkinds

/-- A line has one thing wrong with it at most. -/
theorem Offends.unique {other : Offence} (h : Offends bareLines head? line below offence)
    (hother : Offends bareLines head? line below other) : offence = other := by
  cases hstars : Text.beginsWith sectionMark line with
  | true =>
    rw [offends_iff_of_stars hstars] at h hother
    cases hkind : Line.ofText line <;> simp_all
  | false =>
    rw [offends_iff_of_plain hstars] at h hother
    rcases h with ⟨outside, -, rfl⟩ | ⟨⟨head, hhead, hadd⟩, -, rfl⟩ <;>
      rcases hother with ⟨outside', -, rfl⟩ | ⟨⟨head', hhead', hadd'⟩, -, rfl⟩
    · rfl
    · exact absurd (outside head' hhead') (not_delete_of_add hadd')
    · exact absurd (outside' head hhead) (not_delete_of_add hadd)
    · rfl

end Offends

/-! ### Stretches of lines -/

section Stretches

variable {bareLines : BareLines} {lines front rest : List String} {line : String} {index : Nat}
  {offence : Offence}

theorem lastHead?_append (front rest : List String) :
    lastHead? (front ++ rest) = (lastHead? rest).or (lastHead? front) := by
  rw [lastHead?, List.filter_append, List.getLast?_append]
  rfl

theorem lastHead?_cons_of_stars (h : Text.beginsWith sectionMark line = true)
    (lines : List String) : lastHead? (line :: lines) = (lastHead? lines).or (some line) := by
  rw [← List.singleton_append, lastHead?_append]
  simp [lastHead?, h]

theorem lastHead?_eq_none (h : ∀ line ∈ lines, Text.beginsWith sectionMark line = false) :
    lastHead? lines = none := by
  rw [lastHead?, List.getLast?_eq_none_iff, List.filter_eq_nil_iff]
  simpa using h

/-- **What is wrong with lines does not depend on those above them**, if they begin with the head
of a section, or if what is above them leaves no section open but one that deletes a file. -/
theorem offenceAt_append_iff
    (h : (∀ head ∈ lastHead? front, Text.beginsWith deleteMark head = true) ∨
      ∀ line ∈ rest.head?, Text.beginsWith sectionMark line = true) :
    OffenceAt bareLines (front ++ rest) (front.length + index) offence ↔
      OffenceAt bareLines rest index offence := by
  have hline : (front ++ rest)[front.length + index]? = rest[index]? := by
    simp [List.getElem?_append_right]
  have hbelow : sectionLines (front ++ rest) (front.length + index + 1) =
      sectionLines rest (index + 1) := by
    rw [sectionLines, Nat.add_assoc, List.drop_length_add_append]
    rfl
  rw [OffenceAt, OffenceAt, hline, hbelow, List.take_length_add_append, lastHead?_append]
  refine exists_congr fun line => and_congr_right fun hline => ?_
  cases hstars : Text.beginsWith sectionMark line with
  | true => rw [offends_iff_of_stars hstars, offends_iff_of_stars hstars]
  | false =>
    rw [offends_iff_of_plain hstars, offends_iff_of_plain hstars]
    cases habove : lastHead? (rest.take index) with
    | some head => rfl
    | none =>
      rcases h with h | h
      · have houtside : (∀ head ∈ lastHead? front, Text.beginsWith deleteMark head = true) ↔
            ∀ head ∈ (none : Option String), Text.beginsWith deleteMark head = true :=
          iff_of_true h (by simp)
        have hinside : (∃ head ∈ lastHead? front, Text.beginsWith addMark head = true) ↔
            ∃ head ∈ (none : Option String), Text.beginsWith addMark head = true := by
          refine iff_of_false ?_ (by simp)
          rintro ⟨head, hhead, hadd⟩
          exact not_delete_of_add hadd (h head hhead)
        rw [Option.none_or, houtside, hinside]
      · -- The line continues a section, so the head at the beginning stands above it.
        exfalso
        cases rest with
        | nil => simp at hline
        | cons first rest =>
          have hfirst : Text.beginsWith sectionMark first = true := h first rfl
          cases index with
          | zero =>
            obtain rfl : first = line := by simpa using hline
            exact absurd (hfirst.symm.trans hstars) Bool.noConfusion
          | succ index =>
            rw [List.take_succ_cons, lastHead?_cons_of_stars hfirst] at habove
            cases hlast : lastHead? (rest.take index) <;> simp [hlast] at habove

/-- What is wrong with a first line that begins with three stars. -/
theorem offenceAt_zero_iff :
    OffenceAt bareLines (line :: lines) 0 offence ↔
      Offends bareLines none line (sectionLines lines 0) offence := by
  simp [OffenceAt, lastHead?, sectionLines]

/-- What is wrong with the lines of a section is told by its head. -/
theorem offenceAt_section_iff {head : String} {below : List String}
    (hhead : Text.beginsWith sectionMark head = true)
    (hbelow : ∀ line ∈ below, Text.beginsWith sectionMark line = false)
    (hline : below[index]? = some line) :
    OffenceAt bareLines (head :: (below ++ rest)) (index + 1) offence ↔
      (Text.beginsWith deleteMark head = true ∧ ¬ IsIdle line ∧ offence = .strayLine line) ∨
        (Text.beginsWith addMark head = true ∧ ¬ IsContent line ∧
          offence = .badContent line) := by
  have hindex : index < below.length := (List.getElem?_eq_some_iff.1 hline).1
  have hget : (head :: (below ++ rest))[index + 1]? = some line := by
    rw [List.getElem?_cons_succ, List.getElem?_append_left hindex, hline]
  have habove : lastHead? ((head :: (below ++ rest)).take (index + 1)) = some head := by
    rw [List.take_succ_cons, List.take_append_of_le_length (Nat.le_of_lt hindex),
      lastHead?_cons_of_stars hhead,
      lastHead?_eq_none fun line hmem => hbelow line (List.mem_of_mem_take hmem)]
    rfl
  have hplain := hbelow line (List.mem_of_getElem? hline)
  rw [OffenceAt, hget, habove]
  simp [offends_iff_of_plain hplain]

/-- Nothing is wrong with a head that adds or deletes a file. -/
theorem not_offenceAt_zero (h : (∃ path, Line.ofText line = .add path) ∨
    ∃ path, Line.ofText line = .delete path) :
    ¬ OffenceAt bareLines (line :: lines) 0 offence := by
  rw [offenceAt_zero_iff]
  rcases h with ⟨path, hkind⟩ | ⟨path, hkind⟩ <;>
    simp [offends_iff_of_stars (beginsWith_sectionMark_of_kind hkind rfl), hkind]

/-- Nothing is wrong with a line of a section that updates a file. -/
theorem not_offenceAt_of_update {head path : String} {below : List String}
    (hkind : Line.ofText head = .update path)
    (hbelow : ∀ line ∈ below, Text.beginsWith sectionMark line = false)
    (hindex : index < below.length) :
    ¬ OffenceAt bareLines (head :: (below ++ rest)) (index + 1) offence := by
  rw [offenceAt_section_iff (beginsWith_sectionMark_of_kind hkind rfl) hbelow
    (List.getElem?_eq_getElem hindex)]
  simp [Line.beginsWith_deleteMark_iff, Line.beginsWith_addMark_iff, hkind]

/-- Nothing is wrong with content of a section that adds a file. -/
theorem not_offenceAt_of_add {head path : String} {below : List String}
    (hkind : Line.ofText head = .add path)
    (hbelow : ∀ line ∈ below, Text.beginsWith sectionMark line = false)
    (hline : below[index]? = some line) (hcontent : IsContent line) :
    ¬ OffenceAt bareLines (head :: (below ++ rest)) (index + 1) offence := by
  rw [offenceAt_section_iff (beginsWith_sectionMark_of_kind hkind rfl) hbelow hline]
  simp [Line.beginsWith_deleteMark_iff, hkind, hcontent]

end Stretches

/-! ### The first offence -/

theorem OffenceAt.unique {bareLines : BareLines} {lines : List String} {index : Nat}
    {offence other : Offence} (h : OffenceAt bareLines lines index offence)
    (hother : OffenceAt bareLines lines index other) : offence = other := by
  obtain ⟨line, hline, hoffends⟩ := h
  obtain ⟨line', hline', hoffends'⟩ := hother
  obtain rfl : line = line' := Option.some.inj (hline.symm.trans hline')
  exact hoffends.unique hoffends'

/-- Lines one of which offends have a first one that does. -/
theorem OffenceAt.exists_isFirstOffence {bareLines : BareLines} {lines : List String} {index : Nat}
    {offence : Offence} (h : OffenceAt bareLines lines index offence) :
    ∃ earlier ≤ index, ∃ other, IsFirstOffence bareLines lines earlier other := by
  induction index using Nat.strongRecOn generalizing offence with
  | ind index ih =>
    by_cases hnone : ∀ earlier < index, ∀ other, ¬ OffenceAt bareLines lines earlier other
    · exact ⟨index, Nat.le_refl _, offence, h, hnone⟩
    · obtain ⟨earlier, hlt, other, hother⟩ : ∃ earlier < index, ∃ other,
          OffenceAt bareLines lines earlier other := by
        simpa using hnone
      obtain ⟨first, hle, found, hfirst⟩ := ih earlier hlt hother
      exact ⟨first, hle.trans (Nat.le_of_lt hlt), found, hfirst⟩

/-! ### The lines that tell an offence -/

/-- How many lines from the first one on tell an offence of the line with this index: the lines down
to it, or, where a section has no hunk, down to the line that ends the section. -/
def span (lines : List String) (index : Nat) : Offence → Nat
  | .noHunks _ => index + 1 + (sectionLines lines (index + 1)).length + 1
  | _ => index + 1

section Span

variable {bareLines : BareLines} {lines other : List String} {start index earlier : Nat}
  {offence offence' : Offence}

theorem lt_span (lines : List String) (index : Nat) (offence : Offence) :
    index < span lines index offence := by
  cases offence <;> simp only [span] <;> omega

/-- The members that a list begins with are told by them and the next one. -/
theorem takeWhile_eq_of_take_eq {α : Type} {p : α → Bool} {list other : List α}
    (h : list.take ((list.takeWhile p).length + 1) = other.take ((list.takeWhile p).length + 1)) :
    other.takeWhile p = list.takeWhile p := by
  have htake : (other.takeWhile p).take ((list.takeWhile p).length + 1) = list.takeWhile p := by
    rw [List.take_takeWhile, ← h, ← List.take_takeWhile,
      List.take_of_length_le (Nat.le_succ _)]
  have hlength := congrArg List.length htake
  rw [List.length_take] at hlength
  rwa [List.take_of_length_le (by omega)] at htake

/-- A section is told by its lines and the one that ends it. -/
theorem sectionLines_congr
    (h : lines.take (start + (sectionLines lines start).length + 1) =
      other.take (start + (sectionLines lines start).length + 1)) :
    sectionLines other start = sectionLines lines start := by
  refine takeWhile_eq_of_take_eq ?_
  rw [List.take_drop, List.take_drop]
  exact congrArg (List.drop start) h

/-- **An offence is told by the lines in its span.** -/
theorem OffenceAt.congr (h : OffenceAt bareLines lines index offence)
    (hsame : lines.take (span lines index offence) = other.take (span lines index offence)) :
    OffenceAt bareLines other index offence := by
  have hlt := lt_span lines index offence
  obtain ⟨line, hline, hoffends⟩ := h
  have habove : lines.take index = other.take index := by
    rw [← Nat.min_eq_left (Nat.le_of_lt hlt), ← List.take_take, hsame, List.take_take]
  refine ⟨line, ?_, ?_⟩
  · rw [← List.getElem?_take_of_lt hlt, ← hsame, List.getElem?_take_of_lt hlt, hline]
  · rw [← habove]
    cases hoffends with
    | stray plain outside idle => exact .stray plain outside idle
    | head stars update add delete => exact .head stars update add delete
    | content plain inside content => exact .content plain inside content
    | update head none =>
      refine .update head ?_
      rw [sectionLines_congr hsame]
      exact none

theorem exists_eq_append_section {line : String} (h : lines[index]? = some line) :
    ∃ front rest, lines = front ++ line :: (sectionLines lines (index + 1) ++ rest) ∧
      front.length = index := by
  obtain ⟨hlt, hget⟩ := List.getElem?_eq_some_iff.1 h
  refine ⟨lines.take index,
    (lines.drop (index + 1)).dropWhile fun line => !Text.beginsWith sectionMark line, ?_,
    List.length_take_of_le (Nat.le_of_lt hlt)⟩
  rw [sectionLines, List.takeWhile_append_dropWhile, ← hget, ← List.drop_eq_getElem_cons,
    List.take_append_drop]

/-- The section of an update is ended before another line offends. -/
theorem span_le (h : OffenceAt bareLines lines earlier offence)
    (hlater : OffenceAt bareLines lines index offence') (hlt : earlier < index) :
    span lines earlier offence ≤ index + 1 := by
  obtain ⟨line, hline, hoffends⟩ := h
  cases hoffends with
  | stray | head | content =>
    simp only [span]
    omega
  | @update path head none =>
    refine Nat.not_lt.1 fun hspan => ?_
    simp only [span] at hspan
    have hkind : Line.ofText line = .update path := (Line.ofText_eq_iff rfl).2 head
    have hstars := beginsWith_sectionMark_of_kind hkind rfl
    obtain ⟨front, rest, hsplit, rfl⟩ := exists_eq_append_section hline
    have hbelow : ∀ line ∈ sectionLines lines (front.length + 1),
        Text.beginsWith sectionMark line = false := fun line hmem => by
      simpa using List.mem_takeWhile_imp hmem
    generalize sectionLines lines (front.length + 1) = below at hsplit hbelow hspan
    -- Otherwise the other line is one of the section.
    obtain ⟨later, rfl⟩ : ∃ later, index = front.length + (later + 1) :=
      ⟨index - front.length - 1, by omega⟩
    rw [hsplit, offenceAt_append_iff (.inr (by simpa using hstars))] at hlater
    exact not_offenceAt_of_update hkind hbelow (by omega) hlater

/-- **The first offence is told by the lines in its span.** -/
theorem IsFirstOffence.congr (h : IsFirstOffence bareLines lines index offence)
    (hsame : lines.take (span lines index offence) = other.take (span lines index offence)) :
    IsFirstOffence bareLines other index offence where
  offends := h.offends.congr hsame
  none_above earlier hearlier offence' hoffends := by
    have hle : span other earlier offence' ≤ span lines index offence :=
      (span_le hoffends (h.offends.congr hsame) hearlier).trans (lt_span lines index offence)
    refine h.none_above earlier hearlier offence' (hoffends.congr ?_)
    rw [← Nat.min_eq_left hle, ← List.take_take, ← List.take_take, hsame]

end Span

end LinePatch.Document
