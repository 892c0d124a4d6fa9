import LinePatch.Command.Execute
import LinePatch.Proofs.Document.Grammar
import LinePatch.Proofs.Text.Lines

/-!
# What is extracted from replies

The line that a document is cut off behind in a reply is the line that closes it when it is read,
though the one is told from what stands between line feeds, with or without a carriage return, and
the other from lines that have lost theirs. So what is extracted is read like everything from the
line on where the document begins.

## Main definitions

* `Reply.OpensAt`: the place where a document begins in a reply.

## Main results

* `Reply.isEnd_iff`: the lines behind which a document is cut off.
* `Reply.upToEnd_eq`: what is kept of the lines of a reply.
* `Reply.actions_upToEnd`: a document is read like what it is cut off from.
* `Reply.actions_extract`: extraction and reading agree.
-/

namespace LinePatch.Reply

open Document

/-! ### Marks on lines -/

theorem isBegin_eq (line : String) : isBegin line = Text.beginsWith beginMark line := rfl

theorem beginsWith_beginMark_iff {text first : String} {later : List String}
    (h : Text.pieces text = first :: later) :
    Text.beginsWith beginMark text = true ↔ Text.beginsWith beginMark first = true := by
  simp only [Text.beginsWith_iff]
  constructor
  · rintro ⟨rest, rfl⟩
    obtain ⟨head, _, -, hpieces⟩ := @Text.pieces_append_of_not_mem beginMark (by decide) rest
    obtain ⟨rfl, -⟩ := List.cons_eq_cons.1 (h.symm.trans hpieces)
    exact ⟨head, rfl⟩
  · rintro ⟨rest, rfl⟩
    obtain ⟨more, hmore⟩ := Text.exists_unlines_cons (beginMark ++ rest) later
    rw [← Text.unlines_pieces text, h, hmore, String.append_assoc]
    exact ⟨_, rfl⟩

theorem beginsWith_of_chomped {piece : String}
    (h : Text.beginsWith beginMark (Text.chomped piece) = true) :
    Text.beginsWith beginMark piece = true := by
  obtain ⟨rest, hrest⟩ := Text.beginsWith_iff.1 h
  obtain ⟨ending, hpiece⟩ := Text.exists_chomped_append piece
  rw [Text.beginsWith_iff]
  exact ⟨rest ++ ending, by rw [hpiece, hrest, String.append_assoc]⟩

/-- **A line closes a document in a reply exactly when it is the end mark among lines.** -/
theorem isEnd_iff {piece : String} : isEnd piece = true ↔ Text.chomped piece = endMark := by
  simp only [isEnd, Bool.or_eq_true, beq_iff_eq]
  constructor
  · rintro (rfl | rfl) <;> decide
  · intro h
    rw [← h]
    exact Text.eq_chomped_or piece

/-! ### Up to the closing line -/

/-- What closes a document among lines: nothing, or the first end mark. -/
theorem upToEnd_eq (lines : List String) :
    (upToEnd lines = lines ∧ ∀ line ∈ lines, isEnd line = false) ∨
      ∃ above last below, lines = above ++ last :: below ∧ upToEnd lines = above ++ [endMark] ∧
        (∀ line ∈ above, isEnd line = false) ∧ isEnd last = true := by
  induction lines with
  | nil => exact .inl ⟨rfl, by simp⟩
  | cons line lines ih =>
    cases hline : isEnd line with
    | true => exact .inr ⟨[], line, lines, rfl, by simp [upToEnd, hline], by simp, hline⟩
    | false =>
      rcases ih with ⟨hall, hopen⟩ | ⟨above, last, below, rfl, hcut, hopen, hlast⟩
      · refine .inl ⟨by simp [upToEnd, hline, hall], List.forall_mem_cons.2 ⟨hline, hopen⟩⟩
      · exact .inr ⟨line :: above, last, below, rfl, by simp [upToEnd, hline, hcut],
          List.forall_mem_cons.2 ⟨hline, hopen⟩, hlast⟩

/-- Pieces of a text and an end mark below them can stand in a text of their own. -/
theorem pieces_unlines_endMark {text : String} {above below : List String}
    (h : Text.pieces text = above ++ below) :
    Text.pieces (Text.unlines (above ++ [endMark])) = above ++ [endMark] := by
  refine Text.pieces_unlines (by simp) (List.forall_mem_append.2 ⟨fun line hline => ?_, by decide⟩)
  refine @Text.lineFeed_not_mem_of_mem_pieces text line ?_
  rw [h]
  exact List.mem_append_left _ hline

/-- What reaches to the closing line is a beginning of the text. -/
theorem exists_unlines_upToEnd (lines : List String) :
    ∃ below, Text.unlines lines = Text.unlines (upToEnd lines) ++ below := by
  rcases upToEnd_eq lines with ⟨hall, -⟩ | ⟨above, last, below, rfl, hcut, -, hlast⟩
  · exact ⟨"", by simp [hall]⟩
  · obtain ⟨tail, htail, -⟩ := Text.exists_unlines_chomped above last below
    rw [isEnd_iff.1 hlast] at htail
    exact ⟨tail, by rw [htail, hcut]⟩

/-- **A document that is cut off behind its closing line is read like the whole text.** -/
theorem actions_upToEnd (settings : Settings) (text : String) :
    actions settings (Text.unlines (upToEnd (Text.pieces text))) = actions settings text := by
  rcases upToEnd_eq (Text.pieces text) with
    ⟨hall, -⟩ | ⟨above, last, below, hpieces, hcut, hopen, hlast⟩
  · rw [hall, Text.unlines_pieces]
  · have hlines : Text.lines text =
        above.map Text.chomped ++ endMark :: below.map Text.chomped := by
      rw [Text.lines_eq_map_pieces, hpieces, List.map_append, List.map_cons, isEnd_iff.1 hlast]
    have hkept : Text.lines (Text.unlines (above ++ [endMark])) =
        above.map Text.chomped ++ [endMark] := by
      rw [Text.lines_eq_map_pieces, pieces_unlines_endMark hpieces, List.map_append]
      rfl
    have habove : endMark ∉ above.map Text.chomped := by
      intro hmem
      obtain ⟨line, hline, hmark⟩ := List.mem_map.1 hmem
      simpa [hopen line hline] using isEnd_iff.2 hmark
    rw [hcut, actions, actions]
    cases hfirst : above.map Text.chomped with
    | nil =>
      rw [hfirst, List.nil_append] at hlines hkept
      have hnone : Text.beginsWith beginMark endMark = false := by decide
      rw [read_of_lines_cons hlines, read_of_lines_cons hkept, hnone]
      rfl
    | cons first above =>
      rw [hfirst, List.cons_append] at hlines hkept
      rw [hfirst] at habove
      have hmore := List.not_mem_of_not_mem_cons habove
      rw [read_of_lines_eq_append hlines hmore, read_of_lines_eq_append hkept hmore]

/-! ### The place where a document begins -/

/-- Where a document begins in a reply: `front` is what stands above the first line that begins
like the opening line, and `rest` is the text from this line on. -/
structure OpensAt (front rest : String) : Prop where
  line : front = "" ∨ ∃ above, front = above ++ "\n"
  first : ∀ line ∈ Text.pieces front, Text.beginsWith beginMark line = false
  opened : Text.beginsWith beginMark rest = true

theorem OpensAt.extract? {front rest : String} (h : OpensAt front rest) :
    extract? (front ++ rest) = some (Text.unlines (upToEnd (Text.pieces rest))) := by
  obtain ⟨first, later, hrest⟩ := List.exists_cons_of_ne_nil (Text.pieces_ne_nil rest)
  have hopened : isBegin first = true := (beginsWith_beginMark_iff hrest).1 h.opened
  have hdrop : (Text.pieces (front ++ rest)).dropWhile (!isBegin ·) = first :: later := by
    have hlater : (first :: later).dropWhile (!isBegin ·) = first :: later := by
      simp [hopened]
    rcases h.line with rfl | ⟨above, rfl⟩
    · rw [String.empty_append, hrest, hlater]
    · have hfirst := h.first
      rw [Text.pieces_append_break, List.forall_mem_append] at hfirst
      rw [Text.pieces_append_lineFeed, hrest, List.dropWhile_append_of_pos, hlater]
      exact fun line hline => by simpa [isBegin_eq] using hfirst.1 line hline
  rw [Reply.extract?, hdrop, hrest]

/-- A reply in which a document is found has a place where it begins. -/
theorem exists_opensAt {text document : String} (h : extract? text = some document) :
    ∃ front rest, text = front ++ rest ∧ OpensAt front rest := by
  obtain ⟨above, below, hpieces, habove, hbelow⟩ : ∃ above below,
      Text.pieces text = above ++ below ∧ (∀ line ∈ above, isBegin line = false) ∧
        below = (Text.pieces text).dropWhile (!isBegin ·) :=
    ⟨_, _, List.takeWhile_append_dropWhile.symm,
      fun line hline => by simpa using List.mem_takeWhile_imp hline, rfl⟩
  rw [extract?, ← hbelow] at h
  cases below with
  | nil => simp at h
  | cons first later =>
    have hfirst : isBegin first = true := by
      have hhead := List.head?_dropWhile_not (!isBegin ·) (Text.pieces text)
      simpa [← hbelow] using hhead
    obtain ⟨hfree, hfree'⟩ := List.forall_mem_append.1 fun line hline =>
      Text.lineFeed_not_mem_of_mem_pieces (hpieces ▸ hline)
    have hrest : Text.pieces (Text.unlines (first :: later)) = first :: later :=
      Text.pieces_unlines (List.cons_ne_nil _ _) hfree'
    have hopened := (beginsWith_beginMark_iff hrest).2 hfirst
    rw [← Text.unlines_pieces text, hpieces]
    by_cases hnone : above = []
    · subst hnone
      exact ⟨"", _, by simp, .inl rfl, by decide, hopened⟩
    · refine ⟨_, _, Text.unlines_append hnone (by simp), .inr ⟨_, rfl⟩, ?_, hopened⟩
      rw [Text.pieces_append_break, Text.pieces_unlines hnone hfree, List.forall_mem_append]
      exact ⟨habove, by decide⟩

/-! ### Accepted texts -/

/-- A document begins where its text begins. -/
theorem opensAt_of_actions_eq_ok {settings : Settings} {text : String} {list : List Action}
    (h : actions settings text = .ok list) : OpensAt "" text := by
  obtain ⟨⟨first, hfirst, hbegin⟩, -⟩ := (actions_eq_ok_iff settings text list).1 h
  obtain ⟨piece, later, hpieces⟩ := List.exists_cons_of_ne_nil (Text.pieces_ne_nil text)
  rw [Text.lines_eq_map_pieces, hpieces] at hfirst
  obtain rfl := Option.some.inj hfirst
  exact ⟨.inl rfl, by decide, (beginsWith_beginMark_iff hpieces).2 (beginsWith_of_chomped hbegin)⟩

theorem isSome_afterFirst?_iff {mark chars : List Char} :
    (afterFirst? mark chars).isSome = true ↔ mark <:+: chars := by
  have hbegins (chars : List Char) :
      (mark.isPrefixOf? chars).isSome = true ↔ mark <+: chars := by
    rw [Option.isSome_iff_exists]
    exact exists_congr fun rest => Text.isPrefixOf?_eq_some_iff.trans eq_comm
  induction chars with
  | nil => rw [afterFirst?, hbegins, List.prefix_nil, List.infix_nil]
  | cons c chars ih =>
    rw [List.infix_cons_iff, ← hbegins, afterFirst?]
    cases mark.isPrefixOf? (c :: chars) <;> simp [ih]

/-- A document with an end mark on a line has both marks. -/
theorem looksLikePatch_of_actions_eq_ok {settings : Settings} {text : String}
    {list : List Action} (h : actions settings text = .ok list)
    (hrequired : settings.requireEndMark = true) : looksLikePatch text = true := by
  obtain ⟨-, -, -, hclosed⟩ := (actions_eq_ok_iff settings text list).1 h
  have hopened := (opensAt_of_actions_eq_ok h).opened
  obtain ⟨piece, later, hpieces⟩ := List.exists_cons_of_ne_nil (Text.pieces_ne_nil text)
  have hmark : endMark ∈ Text.lines text := by
    have hlines : Text.lines text = Text.chomped piece :: later.map Text.chomped := by
      rw [Text.lines_eq_map_pieces, hpieces, List.map_cons]
    have hend := hclosed hrequired
    rw [hlines, endIndex_lt_iff] at hend
    rw [hlines]
    exact List.mem_cons_of_mem _ hend
  rw [Text.lines_eq_map_pieces] at hmark
  obtain ⟨last, hlast, hchomped⟩ := List.mem_map.1 hmark
  have hinfix : endMark.toList <:+: text.toList := by
    refine List.IsInfix.trans ?_ (Text.infix_of_mem_pieces hlast)
    obtain ⟨ending, hending⟩ := Text.exists_chomped_append last
    rw [hending, hchomped, String.toList_append]
    exact (List.prefix_append _ _).isInfix
  rw [looksLikePatch, Bool.and_eq_true, isSome_afterFirst?_iff, List.any_eq_true]
  refine ⟨⟨piece, ?_, (beginsWith_beginMark_iff hpieces).1 hopened⟩, hinfix⟩
  rw [hpieces]
  exact List.mem_cons_self

/-- **Extraction and reading agree on where a document is.** What is extracted from a reply is read
like the reply from the line on where the document begins, actions and errors alike. An accepted
text is extracted from its beginning on, and asks for the same actions whether it is extracted or
not. If it has to be closed, it looks like a patch. -/
theorem actions_extract (settings : Settings) (text : String) :
    (∀ document, extract? text = some document →
      (∃ front rest, text = front ++ rest ∧ OpensAt front rest) ∧
        ∀ front rest, text = front ++ rest → OpensAt front rest →
          actions settings document = actions settings rest) ∧
      ∀ list, actions settings text = .ok list →
        (∃ document, extract? text = some document ∧ select true text = .ok document ∧
          (∃ below, text = document ++ below) ∧ actions settings document = .ok list) ∧
        (settings.requireEndMark = true → looksLikePatch text = true) := by
  refine ⟨fun document h => ⟨exists_opensAt h, ?_⟩, fun list h => ⟨?_, ?_⟩⟩
  · rintro front rest rfl hopens
    obtain rfl := Option.some.inj (h.symm.trans hopens.extract?)
    exact actions_upToEnd settings rest
  · have hextract := (opensAt_of_actions_eq_ok h).extract?
    rw [String.empty_append] at hextract
    obtain ⟨below, hbelow⟩ := exists_unlines_upToEnd (Text.pieces text)
    rw [Text.unlines_pieces] at hbelow
    exact ⟨_, hextract, by simp [select, hextract], ⟨below, hbelow⟩,
      (actions_upToEnd settings text).trans h⟩
  · exact looksLikePatch_of_actions_eq_ok h

/-- A document between a remark and a fence, with a look-alike of its end mark, is read alike with
and without what follows its end mark. -/
theorem actions_extract_fenced :
    let document := "*** Begin Patch \r\n*** Add File: a\r\n+*** End Patch\r\r\n*** End Patch"
    let rest := document ++ "\r\n~~~"
    actions {} document = actions {} rest ∧ (∃ below, rest = document ++ below) ∧
      looksLikePatch rest = true := by
  intro document rest
  have hread := (actions_extract {} ("Done:\n" ++ rest)).1 document (by decide +kernel)
  have hopens : OpensAt "Done:\n" rest := ⟨.inr ⟨"Done:", rfl⟩, by decide, by decide⟩
  have hlist : actions { requireEndMark := true } rest = .ok [.add "a" "*** End Patch\r"] := by
    decide +kernel
  obtain ⟨⟨other, hextract, -, hbelow, -⟩, hlooks⟩ := (actions_extract _ rest).2 _ hlist
  obtain rfl : document = other := Option.some.inj (hextract.symm.trans (by decide +kernel)).symm
  exact ⟨hread.2 _ rest rfl hopens, hbelow, hlooks rfl⟩

end LinePatch.Reply
