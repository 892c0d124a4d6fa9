import LinePatch.Proofs.Reply

/-!
# Documents among prose

A document that is written into a reply comes out of it as it went in, whatever stands around it:
above it may be any lines that do not begin like the opening line, and behind its closing line any
text that leaves this line a line. The converse holds as well. What is extracted stands in the reply
where a line begins, and either its last line is the first one that closes it, or no line closes it
and it reaches to the end of the reply. Cutting a document out makes a new end of text, at which its
closing line still closes it, so that there is nothing to extract a second time.

## Main definitions

* `Reply.IsClosed`, `Reply.IsOpen`: documents with and without a closing line.

## Main results

* `Reply.extract?_eq_some_iff`: the documents that are extracted, and where they stand.
* `Reply.extract_embedded`: extraction undoes embedding, finds every opening line, and is
  idempotent.
-/

namespace LinePatch.Reply

open Document

/-! ### Documents and what stands behind them -/

/-- No line closes the document. -/
def IsOpen (document : String) : Prop :=
  ∀ line ∈ Text.pieces document, line ≠ endMark ∧ line ≠ endMark ++ "\r"

/-- The last line is the end mark, and no line above it closes the document. -/
def IsClosed (document : String) : Prop :=
  ∃ above, Text.pieces document = above ++ [endMark] ∧
    ∀ line ∈ above, line ≠ endMark ∧ line ≠ endMark ++ "\r"

theorem isEnd_eq_false_iff {line : String} :
    isEnd line = false ↔ line ≠ endMark ∧ line ≠ endMark ++ "\r" := by
  simp [isEnd]

/-! ### Extraction -/

/-- What is kept of lines reaches to the first one that closes a document. -/
theorem upToEnd_append_cons {above : List String} {last : String}
    (habove : ∀ line ∈ above, isEnd line = false) (hlast : isEnd last = true)
    (below : List String) : upToEnd (above ++ last :: below) = above ++ [endMark] := by
  induction above with
  | nil => simp [upToEnd, hlast]
  | cons line above ih =>
    obtain ⟨hline, habove⟩ := List.forall_mem_cons.1 habove
    simp [upToEnd, hline, ih habove]

theorem upToEnd_eq_self {lines : List String} (h : ∀ line ∈ lines, isEnd line = false) :
    upToEnd lines = lines := by
  rcases upToEnd_eq lines with ⟨hall, -⟩ | ⟨above, last, below, rfl, -, -, hlast⟩
  · exact hall
  · rw [h last (by simp)] at hlast
    exact nomatch hlast

/-- A closed document is kept as it is, whatever stands behind its closing line. -/
theorem IsClosed.unlines_upToEnd {document tail : String} (h : IsClosed document)
    (htail : Text.EndsLine tail) :
    Text.unlines (upToEnd (Text.pieces (document ++ tail))) = document := by
  obtain ⟨above, hpieces, habove⟩ := h
  obtain ⟨ending, later, hrest, hending⟩ := htail.exists_pieces
  have hlast : isEnd (endMark ++ ending) = true := by
    rcases hending with rfl | rfl <;> decide
  rw [Text.pieces_append hpieces hrest,
    upToEnd_append_cons (fun line hline => isEnd_eq_false_iff.2 (habove line hline)) hlast,
    ← hpieces, Text.unlines_pieces]

theorem OpensAt.append {front rest : String} (h : OpensAt front rest) (tail : String) :
    OpensAt front (rest ++ tail) := by
  refine ⟨h.line, h.first, ?_⟩
  obtain ⟨more, rfl⟩ := Text.beginsWith_iff.1 h.opened
  exact Text.beginsWith_iff.2 ⟨more ++ tail, String.append_assoc⟩

/-- A document that a line of the reply closes is cut off behind the end mark of that line. -/
theorem OpensAt.exists_closed {front rest last : String} {above below : List String}
    (h : OpensAt front rest) (hpieces : Text.pieces rest = above ++ last :: below)
    (habove : ∀ line ∈ above, isEnd line = false) (hlast : isEnd last = true) :
    ∃ tail, rest = Text.unlines (above ++ [endMark]) ++ tail ∧
      OpensAt front (Text.unlines (above ++ [endMark])) ∧
      IsClosed (Text.unlines (above ++ [endMark])) ∧ Text.EndsLine tail := by
  have hdocument := pieces_unlines_endMark hpieces
  have hclosed : IsClosed (Text.unlines (above ++ [endMark])) :=
    ⟨above, hdocument, fun line hline => isEnd_eq_false_iff.1 (habove line hline)⟩
  have hopened : Text.beginsWith beginMark (Text.unlines (above ++ [endMark])) = true := by
    cases above with
    | nil =>
      -- The opening line closes no document, so it is not the line that is cut at.
      have hbegins := (beginsWith_beginMark_iff hpieces).1 h.opened
      rw [isEnd, Bool.or_eq_true, beq_iff_eq, beq_iff_eq] at hlast
      rcases hlast with rfl | rfl <;> exact absurd hbegins (by decide)
    | cons first above =>
      have hbegins := (beginsWith_beginMark_iff hpieces).1 h.opened
      exact (beginsWith_beginMark_iff hdocument).2 hbegins
  obtain ⟨tail, htail, hends⟩ := Text.exists_unlines_chomped above last below
  rw [isEnd_iff.1 hlast, ← hpieces, Text.unlines_pieces] at htail
  exact ⟨tail, htail, ⟨h.line, h.first, hopened⟩, hclosed, hends⟩

/-- **The documents that are extracted.** A document is extracted exactly if it begins in the reply
where a document begins, and its last line is the first one to close it, or none does and the reply
ends with it. -/
theorem extract?_eq_some_iff {text document : String} :
    extract? text = some document ↔
      ∃ front tail, text = front ++ document ++ tail ∧ OpensAt front document ∧
        (IsClosed document ∧ Text.EndsLine tail ∨ IsOpen document ∧ tail = "") := by
  constructor
  · intro h
    obtain ⟨front, rest, rfl, hopens⟩ := exists_opensAt h
    obtain rfl := Option.some.inj (hopens.extract?.symm.trans h)
    rcases upToEnd_eq (Text.pieces rest) with
      ⟨hall, hopen⟩ | ⟨above, last, below, hpieces, hcut, habove, hlast⟩
    · rw [hall, Text.unlines_pieces]
      exact ⟨front, "", by rw [String.append_empty], hopens,
        .inr ⟨fun line hline => isEnd_eq_false_iff.1 (hopen line hline), rfl⟩⟩
    · obtain ⟨tail, hrest, hopens, hclosed, hends⟩ := hopens.exists_closed hpieces habove hlast
      rw [hcut]
      exact ⟨front, tail, by rw [String.append_assoc, ← hrest], hopens, .inl ⟨hclosed, hends⟩⟩
  · rintro ⟨front, tail, rfl, hopens, ⟨hclosed, hends⟩ | ⟨hopen, rfl⟩⟩
    · rw [String.append_assoc, (hopens.append tail).extract?, hclosed.unlines_upToEnd hends]
    · rw [String.append_empty, hopens.extract?,
        upToEnd_eq_self fun line hline => isEnd_eq_false_iff.2 (hopen line hline),
        Text.unlines_pieces]

/-- Nothing is found in a reply without a line that begins like an opening line. -/
theorem extract?_eq_none_iff {text : String} :
    extract? text = none ↔ ∀ line ∈ Text.pieces text, Text.beginsWith beginMark line = false := by
  have hdrop : (Text.pieces text).dropWhile (!isBegin ·) = [] ↔
      ∀ line ∈ Text.pieces text, Text.beginsWith beginMark line = false := by
    simp [List.dropWhile_eq_nil_iff, isBegin_eq]
  rw [← hdrop, extract?]
  cases (Text.pieces text).dropWhile (!isBegin ·) <;> simp

/-- A document is found in every reply in which some line begins like an opening line. -/
theorem exists_extract?_iff {text : String} :
    (∃ document, extract? text = some document) ↔
      ∃ line ∈ Text.pieces text, Text.beginsWith beginMark line = true := by
  rw [← Option.ne_none_iff_exists', Ne, extract?_eq_none_iff]
  simp

/-- **Extraction undoes embedding.** A document that is closed by its last line, and by no line
above it, is extracted from every reply in which it stands below lines that do not begin like the
opening line, whatever follows its closing line. A document is found exactly in those replies in
which some line begins like an opening line. What is extracted is a piece of the reply that stands
where a line begins, and from itself it is extracted again. -/
theorem extract_embedded :
    (∀ front document tail, OpensAt front document → IsClosed document → Text.EndsLine tail →
      extract? (front ++ document ++ tail) = some document) ∧
    ∀ text,
      ((∃ document, extract? text = some document) ↔
        ∃ line ∈ Text.pieces text, Text.beginsWith beginMark line = true) ∧
      ∀ document, extract? text = some document →
        (∃ front tail, text = front ++ document ++ tail ∧
          (front = "" ∨ ∃ above, front = above ++ "\n")) ∧
        extract? document = some document := by
  refine ⟨fun front document tail hopens hclosed hends => ?_,
    fun text => ⟨exists_extract?_iff, fun document h => ?_⟩⟩
  · exact extract?_eq_some_iff.2 ⟨front, tail, rfl, hopens, .inl ⟨hclosed, hends⟩⟩
  · obtain ⟨front, tail, htext, hopens, hends⟩ := extract?_eq_some_iff.1 h
    refine ⟨⟨front, tail, htext, hopens.line⟩, extract?_eq_some_iff.2 ⟨"", "", ?_, ?_, ?_⟩⟩
    · rw [String.empty_append, String.append_empty]
    · exact ⟨.inl rfl, by decide, hopens.opened⟩
    · exact hends.imp (fun ⟨hclosed, _⟩ => ⟨hclosed, .inl rfl⟩) fun ⟨hopen, _⟩ => ⟨hopen, rfl⟩

/-- Look-alikes of both marks stand above the document, in it and below it. -/
theorem extract_embedded_look_alikes :
    let front := "*** End Patch\n> *** Begin Patch\n"
    let document := "*** Begin Patch 2\r\n+*** End Patch\n*** End Patch\r\r\n*** End Patch"
    let tail := "\r\n*** Begin Patch\n*** End Patch"
    OpensAt front document ∧ IsClosed document ∧ Text.EndsLine tail ∧
      extract? (front ++ document ++ tail) = some document ∧ extract? document = some document := by
  intro front document tail
  have hopens : OpensAt front document :=
    ⟨.inr ⟨"*** End Patch\n> *** Begin Patch", rfl⟩, by decide, by decide⟩
  have hclosed : IsClosed document :=
    ⟨["*** Begin Patch 2\r", "+*** End Patch", "*** End Patch\r\r"], by decide, by decide⟩
  have hends : Text.EndsLine tail :=
    .inr (.inr (.inr ⟨"*** Begin Patch\n*** End Patch", rfl⟩))
  have hextract := extract_embedded.1 front document tail hopens hclosed hends
  exact ⟨hopens, hclosed, hends, hextract, ((extract_embedded.2 _).2 document hextract).2⟩

end LinePatch.Reply
