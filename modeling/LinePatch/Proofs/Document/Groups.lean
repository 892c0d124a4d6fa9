import LinePatch.Document.Reader
import LinePatch.Proofs.Document.Hunks
import LinePatch.Proofs.Document.Lines
import Mathlib.Data.List.SplitBy

/-!
# The hunks of a section as groups of its lines

The hunks of a section that updates a file can be told from its lines without reading them one
after the other. The lines above the first one that opens a hunk are dropped, the others are cut
before every line that begins with two at-signs, and each piece is a hunk, unless it has no line of
one. What a line brings to its hunk is told by its first character. So a bare line that is skipped
might as well not be there.

## Main definitions

* `Document.sectionLines`: the lines of a section.
* `Document.hunkLineOf?`, `Document.hunkOf`, `Document.groups`: the hunk line that a line stands
  for, the hunk that a piece stands for, and the hunks of a section.

## Main results

* `Document.hunksOf_pieces`: the hunks of lines, the first piece of which is begun.
* `Document.hunks_map_ofText`: the hunks of a section are its groups.
* `Document.hunks_filter_isBare`: bare lines that are skipped are not missed.
* `Document.readSections_update_eq_groups`: the reading of a section that updates a file.
-/

namespace LinePatch.Document

/-! ### Groups of lines -/

/-- The lines of a section from this index on, up to the first one that begins with three stars. -/
def sectionLines (lines : List String) (start : Nat) : List String :=
  (lines.drop start).takeWhile fun line => !Text.beginsWith sectionMark line

/-- Whether a line opens the first hunk of a section. -/
def opensHunk (line : String) : Bool :=
  Text.beginsWith hunkMark line || Text.beginsWith " " line || Text.beginsWith "+" line ||
    Text.beginsWith "-" line

/-- Whether a line that continues a section has characters, but no mark. -/
def isBare (line : String) : Bool :=
  line ≠ "" && !opensHunk line && !Text.beginsWith sectionMark line

/-- What a line brings to the hunk that it stands in. A line that opens a hunk brings nothing. -/
def hunkLineOf? (bareLines : BareLines) (line : String) : Option HunkLine :=
  if Text.beginsWith hunkMark line then none
  else if let some text := Text.after? " " line then some (.context text)
  else if let some text := Text.after? "+" line then some (.add text)
  else if let some text := Text.after? "-" line then some (.remove text)
  else if line = "" then some (.context "")
  else match bareLines with
    | .skip => none
    | .context => some (.context line)

/-- The label that a line gives to the hunk that begins with it: what follows the at-signs, without
the blank characters around it. If nothing is left, there is no label. -/
def labelOf? (line : String) : Option String :=
  match Text.after? hunkMark line with
  | some rest => if Text.trim rest = "" then none else some (Text.trim rest)
  | none => none

/-- The hunk that lines stand for. -/
def hunkOf (bareLines : BareLines) (piece : List String) : Hunk :=
  ⟨piece.head?.bind labelOf?, piece.filterMap (hunkLineOf? bareLines)⟩

/-- Lines cut before every one that begins with two at-signs. -/
def pieces (lines : List String) : List (List String) :=
  lines.splitBy fun _ line => !Text.beginsWith hunkMark line

/-- The hunks of pieces, without those that have no lines. -/
def hunksOf (bareLines : BareLines) (parts : List (List String)) : List Hunk :=
  (parts.map (hunkOf bareLines)).filter fun hunk => !hunk.lines.isEmpty

/-- The hunks of a section. -/
def groups (bareLines : BareLines) (lines : List String) : List Hunk :=
  hunksOf bareLines (pieces (lines.dropWhile fun line => !opensHunk line))

/-! ### What the first characters of a line tell -/

theorem Line.ofText_ne_hunk {line : String} (h : Text.beginsWith hunkMark line = false)
    (rest : String) : ofText line ≠ .hunk rest := fun hrest => by
  rw [beginsWith_hunkMark_iff.2 ⟨rest, hrest⟩] at h
  cases h

/-- Whether a line opens the first hunk is told by its kind. -/
theorem opensHunk_eq (line : String) : opensHunk line = (Line.ofText line).opensHunk := by
  rw [Bool.eq_iff_iff]
  simp only [opensHunk, Bool.or_eq_true, Line.beginsWith_hunkMark_iff,
    Line.beginsWith_iff_ofText .context (fun _ => rfl) fun _ => rfl,
    Line.beginsWith_iff_ofText .added (fun _ => rfl) fun _ => rfl,
    Line.beginsWith_iff_ofText .removed (fun _ => rfl) fun _ => rfl]
  cases Line.ofText line <;> simp [Line.opensHunk]

/-- What a line brings to its hunk is told by its kind. -/
theorem hunkLineOf?_eq (bareLines : BareLines) (line : String) :
    (hunkLineOf? bareLines line).toList = (Line.ofText line).hunkLines bareLines := by
  have hcontext (text : String) : Text.after? " " line = some text ↔
      Line.ofText line = .context text := Line.after?_eq_some_iff_ofText _ rfl rfl
  have hadded (text : String) : Text.after? "+" line = some text ↔
      Line.ofText line = .added text := Line.after?_eq_some_iff_ofText _ rfl rfl
  have hremoved (text : String) : Text.after? "-" line = some text ↔
      Line.ofText line = .removed text := Line.after?_eq_some_iff_ofText _ rfl rfl
  have hblank : Line.ofText line = .blank ↔ line = "" := Line.ofText_eq_iff rfl
  unfold hunkLineOf?
  split
  · obtain ⟨rest, hline⟩ := Line.beginsWith_hunkMark_iff.1 ‹_›
    rw [hline]
    rfl
  split
  · rw [(hcontext _).1 ‹_›]
    rfl
  split
  · rw [(hadded _).1 ‹_›]
    rfl
  split
  · rw [(hremoved _).1 ‹_›]
    rfl
  split
  · rw [hblank.2 ‹_›]
    rfl
  -- No mark is left, so what the line brings is up to the setting.
  have htext := Line.text_ofText line
  cases hline : Line.ofText line with
  | hunk rest => exact absurd hline (Line.ofText_ne_hunk (Bool.eq_false_iff.2 ‹_›) rest)
  | _ => cases bareLines <;> simp_all [Line.hunkLines, Line.hunkLine?]

theorem filterMap_hunkLineOf? (bareLines : BareLines) (lines : List String) :
    lines.filterMap (hunkLineOf? bareLines) =
      (lines.map Line.ofText).flatMap (Line.hunkLines bareLines) := by
  simp only [List.filterMap_eq_flatMap_toList, List.flatMap_map, hunkLineOf?_eq]

theorem labelOf?_eq_of_hunk {line rest : String} (h : Line.ofText line = .hunk rest) :
    labelOf? line = label rest := by
  simp only [labelOf?, (Line.after?_eq_some_iff_ofText _ rfl rfl).2 h, label]

theorem labelOf?_eq_none {line : String} (h : Text.beginsWith hunkMark line = false) :
    labelOf? line = none := by
  rw [Text.beginsWith, Option.isSome_eq_false_iff, Option.isNone_iff_eq_none] at h
  simp only [labelOf?, h]

/-! ### The pieces of a section -/

theorem hunksOf_cons (bareLines : BareLines) (piece : List String) (parts : List (List String)) :
    hunksOf bareLines (piece :: parts) =
      hunkThen (piece.head?.bind labelOf?) (piece.filterMap (hunkLineOf? bareLines))
        (hunksOf bareLines parts) := by
  rw [hunksOf, List.map_cons, List.filter_cons]
  cases h : piece.filterMap (hunkLineOf? bareLines) <;> simp [hunkOf, hunkThen, h, hunksOf]

theorem mem_of_mem_pieces {lines piece : List String} {line : String} (h : piece ∈ pieces lines)
    (hline : line ∈ piece) : line ∈ lines := by
  rw [← List.flatten_splitBy (fun _ line => !Text.beginsWith hunkMark line) lines]
  exact List.mem_flatten.2 ⟨piece, h, hline⟩

/-- Lines are one piece if none of them but the first one begins with two at-signs. -/
theorem pieces_eq_singleton {first : String} {front : List String}
    (hfront : ∀ line ∈ front, Text.beginsWith hunkMark line = false) :
    pieces (first :: front) = [first :: front] := by
  refine List.splitBy_of_isChain (List.cons_ne_nil _ _) (List.Pairwise.isChain ?_)
  have hjoined : ∀ line ∈ front, (!Text.beginsWith hunkMark line) = true := by simpa using hfront
  exact List.pairwise_cons.2 ⟨hjoined, List.pairwise_of_forall_mem_list fun _ _ => hjoined⟩

/-- **The hunks of lines, the first piece of which is begun.** The hunk that the first piece stands
for has what the lines in front bring to it and what the others bring to the hunk that they begin
in. -/
theorem hunksOf_pieces (bareLines : BareLines) (first : String) (front : List String)
    (hfront : ∀ line ∈ front, Text.beginsWith hunkMark line = false) (lines : List String) :
    hunksOf bareLines (pieces (first :: front ++ lines)) =
      hunkThen (labelOf? first)
        (((first :: front).map Line.ofText).flatMap (Line.hunkLines bareLines) ++
          (gather bareLines (lines.map Line.ofText)).1)
        (gather bareLines (lines.map Line.ofText)).2 := by
  -- A line without the mark joins the lines in front, and one with it begins the next piece.
  induction lines generalizing first front with
  | nil =>
    rw [List.append_nil, pieces_eq_singleton hfront, hunksOf_cons, filterMap_hunkLineOf?]
    simp [gather, hunksOf]
  | cons line lines ih =>
    cases hline : Text.beginsWith hunkMark line with
    | true =>
      obtain ⟨rest, hrest⟩ := Line.beginsWith_hunkMark_iff.1 hline
      have hcut : pieces (first :: front ++ line :: lines) =
          (first :: front) :: pieces (line :: lines) := by
        rw [pieces, List.splitBy_append_cons _ (by simp [hline]), ← pieces, ← pieces,
          pieces_eq_singleton hfront, List.singleton_append]
      have hlater := ih line [] (by simp)
      rw [List.singleton_append] at hlater
      rw [hcut, hunksOf_cons, filterMap_hunkLineOf?, hlater, labelOf?_eq_of_hunk hrest]
      simp [hrest, gather_cons_hunk, Line.hunkLines]
    | false =>
      have hlater := ih first (front ++ [line]) (by
        simpa [or_imp, forall_and, hline] using hfront)
      simpa [gather_cons_of_not_hunk (Line.ofText_ne_hunk hline)] using hlater

/-- **The hunks of a section are its groups.** -/
theorem hunks_map_ofText (bareLines : BareLines) (lines : List String) :
    hunks bareLines (lines.map Line.ofText) = groups bareLines lines := by
  have hdrop : (lines.map Line.ofText).dropWhile (!·.opensHunk) =
      (lines.dropWhile (!opensHunk ·)).map Line.ofText := by
    rw [List.dropWhile_map]
    simp only [Function.comp_def, opensHunk_eq]
  rw [hunks, hdrop, groups]
  cases lines.dropWhile (!opensHunk ·) with
  | nil => rfl
  | cons first rest =>
    have hpieces := hunksOf_pieces bareLines first [] (by simp) rest
    rw [List.singleton_append] at hpieces
    rw [hpieces]
    cases hfirst : Text.beginsWith hunkMark first with
    | true =>
      obtain ⟨label, hlabel⟩ := Line.beginsWith_hunkMark_iff.1 hfirst
      simp [hlabel, gather_cons_hunk, labelOf?_eq_of_hunk hlabel, Line.hunkLines, hunkThen]
    | false =>
      simp [gather_cons_of_not_hunk (Line.ofText_ne_hunk hfirst), labelOf?_eq_none hfirst]

/-! ### Bare lines that are skipped -/

/-- Whether a line has no mark of a section. -/
def Line.isBare : Line → Bool
  | .bare _ => true
  | _ => false

theorem isBare_eq (line : String) : isBare line = (Line.ofText line).isBare := by
  have hblank : Line.ofText line = .blank ↔ line = "" := Line.ofText_eq_iff rfl
  have hbody := Line.isBody_ofText line
  rw [isBare, opensHunk_eq]
  cases hline : Line.ofText line <;> simp_all [Line.isBody, Line.opensHunk, Line.isBare]

theorem gather_filter_isBare (body : List Line) :
    gather .skip (body.filter (!·.isBare)) = gather .skip body := by
  induction body with
  | nil => rfl
  | cons line body ih =>
    cases line with
    | bare text =>
      rw [List.filter_cons_of_neg (by simp [Line.isBare]), ih, gather_cons_of_not_hunk (by simp)]
      rfl
    | hunk rest => rw [List.filter_cons_of_pos rfl, gather_cons_hunk, gather_cons_hunk, ih]
    | _ =>
      rw [List.filter_cons_of_pos rfl, gather_cons_of_not_hunk (by simp),
        gather_cons_of_not_hunk (by simp), ih]

/-- **Bare lines that are skipped are not missed.** -/
theorem hunks_filter_isBare (body : List Line) :
    hunks .skip (body.filter (!·.isBare)) = hunks .skip body := by
  have hdrop : (body.filter (!·.isBare)).dropWhile (!·.opensHunk) =
      (body.dropWhile (!·.opensHunk)).filter (!·.isBare) := by
    induction body with
    | nil => rfl
    | cons line body ih => cases line <;> simp_all [Line.isBare, Line.opensHunk]
  rw [hunks, hdrop, gather_filter_isBare]
  rfl

/-! ### Reading a section -/

theorem body_drop_map_ofText (lines : List String) (start : Nat) :
    body ((lines.drop start).map Line.ofText) = (sectionLines lines start).map Line.ofText := by
  rw [body, List.takeWhile_map, sectionLines]
  simp only [Function.comp_def, Line.isBody_ofText]

theorem drop_sectionLines (lines : List String) (start : Nat) :
    lines.drop (start + (sectionLines lines start).length) =
      (lines.drop start).dropWhile fun line => !Text.beginsWith sectionMark line := by
  have hjoin : sectionLines lines start ++
      (lines.drop start).dropWhile (fun line => !Text.beginsWith sectionMark line) =
        lines.drop start := List.takeWhile_append_dropWhile
  rw [← List.drop_drop]
  exact (congrArg (List.drop _) hjoin.symm).trans List.drop_left

theorem afterBody_drop_map_ofText (lines : List String) (start : Nat) :
    afterBody ((lines.drop start).map Line.ofText) =
      (lines.drop (start + (sectionLines lines start).length)).map Line.ofText := by
  rw [afterBody, List.dropWhile_map, drop_sectionLines]
  simp only [Function.comp_def, Line.isBody_ofText]

theorem filter_isBare_map_ofText (lines : List String) :
    (lines.map Line.ofText).filter (!·.isBare) =
      (lines.filter (!isBare ·)).map Line.ofText := by
  rw [List.filter_map]
  simp only [Function.comp_def, isBare_eq]

/-- **The reading of a section that updates a file.** The section is the lines below its head, up
to the first one that begins with three stars, and the reading goes on with that line. The hunks of
the section are its groups, and a section without one is an offence on its head. Where bare lines
are skipped, sections that differ only in bare lines have the same hunks. -/
theorem readSections_update_eq_groups (bareLines : BareLines) (atEnd : Option SyntaxError)
    (lines : List String) (start : Nat) (path : String) :
    let below := sectionLines lines start
    let next := start + below.length
    let rest := (lines.drop start).map Line.ofText
    hunks bareLines (body rest) = groups bareLines below ∧
      afterBody rest = (lines.drop next).map Line.ofText ∧
      readSections bareLines atEnd start (.update path :: rest) =
        (if groups bareLines below = [] then .failed start (.noHunks path)
        else (readSections bareLines atEnd (next + 1) ((lines.drop next).map Line.ofText)).after
          (.update path (groups bareLines below))) ∧
      ∀ other : List String, other.filter (!isBare ·) = below.filter (!isBare ·) →
        hunks .skip (other.map Line.ofText) = hunks .skip (below.map Line.ofText) := by
  have hhunks : hunks bareLines (body ((lines.drop start).map Line.ofText)) =
      groups bareLines (sectionLines lines start) := by
    rw [body_drop_map_ofText, hunks_map_ofText]
  refine ⟨hhunks, afterBody_drop_map_ofText lines start, ?_, ?_⟩
  · rw [readSections, hhunks, afterBody_drop_map_ofText, body_drop_map_ofText, List.length_map]
    cases groups bareLines (sectionLines lines start) with
    | nil => rfl
    | cons hunk hunks => simp [Nat.add_right_comm]
  · intro other hother
    rw [← hunks_filter_isBare, filter_isBare_map_ofText, hother, ← filter_isBare_map_ofText,
      hunks_filter_isBare]

/-- A section with two hunks, the second one with a label, and with two remarks. One of these is
above the first hunk, and neither of them is missed. -/
theorem readSections_update_eq_groups_remarks :
    let lines := ["*** Update File: f", "remark", " a", "note", "-b", "@@  g h ", "+c",
      "*** End Patch"]
    let found : List Hunk := [⟨none, [.context "a", .remove "b"]⟩, ⟨some "g h", [.add "c"]⟩]
    hunks .skip (body ((lines.drop 1).map Line.ofText)) = found ∧
      readSections .skip none 1 (.update "f" :: (lines.drop 1).map Line.ofText) =
        (readSections .skip none 8 [.endMark]).after (.update "f" found) ∧
      hunks .skip ([" a", "-b", "@@  g h ", "+c"].map Line.ofText) = found := by
  intro lines found
  obtain ⟨hhunks, -, hread, hremarks⟩ := readSections_update_eq_groups .skip none lines 1 "f"
  have hgroups : groups .skip (sectionLines lines 1) = found := by decide +kernel
  refine ⟨hhunks.trans hgroups, ?_, ?_⟩
  · rw [hread, hgroups]
    rfl
  · rw [hremarks _ (by decide +kernel), hunks_map_ofText, hgroups]

end LinePatch.Document
