import LinePatch.Text.Lines

/-!
# Texts that can stand as lines

Joining lines and cutting the result gives the lines back as long as no line takes part in a line
ending itself: a line feed would cut it in two, and a carriage return at its end would be taken
for the first half of an ending. Where every line is ended by a carriage return of its own besides
the line feed, only the line feeds matter.

## Main definitions

* `Text.chomped`: a piece of a text without the carriage return of its line ending.
* `Text.EndsLine`: what may stand behind a line in a text.
* `Text.IsLine`: a text that is not changed by standing in a line of its own.

## Main results

* `Text.pieces_append`: the pieces of two texts in a row.
* `Text.pieces_append_lineFeed`, `Text.lines_append_lineFeed`: a line feed cuts a text in two.
* `Text.pieces_unlines`, `Text.lines_unlines`: joined lines are cut where they were joined.
* `Text.induction_lineFeed`: induction on a text, line by line.
* `Text.lines_join_crlf`: lines that are ended one by one.
-/

namespace LinePatch.Text

/-! ### Pieces -/

theorem pieces_ne_nil (text : String) : pieces text ≠ [] := by
  simp [pieces, List.splitOn_ne_nil]

/-- A line feed separates what stands in front of it from what stands behind it. -/
theorem pieces_append_lineFeed (front back : String) :
    pieces (front ++ "\n" ++ back) = pieces front ++ pieces back := by
  have hsplit := List.splitOn_append_cons_self (a := '\n') front.toList back.toList
  simp [pieces, hsplit]

/-- A line break at the end of a text has an empty piece behind it. -/
theorem pieces_append_break (text : String) : pieces (text ++ "\n") = pieces text ++ [""] := by
  have happend := pieces_append_lineFeed text ""
  rwa [String.append_empty] at happend

theorem pieces_eq_singleton {text : String} (h : '\n' ∉ text.toList) : pieces text = [text] := by
  simp [pieces, List.splitOn_eq_singleton h]

theorem lineFeed_not_mem_of_mem_splitOn {chars piece : List Char}
    (h : piece ∈ chars.splitOn '\n') : '\n' ∉ piece := by
  induction chars generalizing piece with
  | nil => simp_all
  | cons c rest ih =>
    rw [List.splitOn_cons_eq_if_modifyHead] at h
    split at h
    · rcases List.mem_cons.1 h with rfl | h
      · simp
      · exact ih h
    · rename_i hc
      obtain ⟨first, later, hsplit⟩ := List.exists_cons_of_ne_nil (List.splitOn_ne_nil '\n' rest)
      rw [hsplit, List.modifyHead_cons] at h
      rw [hsplit] at ih
      rcases List.mem_cons.1 h with rfl | h
      · intro hmem
        rcases List.mem_cons.1 hmem with rfl | hmem
        · exact hc (beq_self_eq_true _)
        · exact ih List.mem_cons_self hmem
      · exact ih (List.mem_cons_of_mem _ h)

/-- No line feed is left in what the line feeds of a text separate. -/
theorem lineFeed_not_mem_of_mem_pieces {text piece : String} (h : piece ∈ pieces text) :
    '\n' ∉ piece.toList := by
  obtain ⟨chars, hchars, rfl⟩ := List.mem_map.1 h
  rw [String.toList_ofList]
  exact lineFeed_not_mem_of_mem_splitOn hchars

/-- Joining pieces and cutting the result gives the pieces back. -/
theorem pieces_unlines {list : List String} (hne : list ≠ [])
    (h : ∀ piece ∈ list, '\n' ∉ piece.toList) : pieces (unlines list) = list := by
  have hcut : (unlines list).toList.splitOn '\n' = list.map String.toList := by
    rw [unlines, String.toList_ofList]
    refine List.splitOn_intercalate '\n' ?_ (by simpa using hne)
    simpa using h
  simp [pieces, hcut]

theorem unlines_cons (line : String) {list : List String} (hne : list ≠ []) :
    unlines (line :: list) = line ++ "\n" ++ unlines list := by
  have hmap : list.map String.toList ≠ [] := by simpa using hne
  simp [unlines, List.intercalate_cons_of_ne_nil hmap, ← String.toList_inj]

/-- What the first line begins with stands in front of the joined lines. -/
theorem unlines_append_cons (front line : String) (list : List String) :
    unlines ((front ++ line) :: list) = front ++ unlines (line :: list) := by
  cases list with
  | nil => rw [unlines_singleton, unlines_singleton]
  | cons next list =>
    rw [unlines_cons _ (List.cons_ne_nil next list), unlines_cons _ (List.cons_ne_nil next list)]
    simp only [String.append_assoc]

/-- Joined lines begin with the first of them. -/
theorem exists_unlines_cons (line : String) (list : List String) :
    ∃ more, unlines (line :: list) = line ++ more := by
  have hfront := unlines_append_cons line "" list
  rw [String.append_empty] at hfront
  exact ⟨_, hfront⟩

/-- Joined lines are joined by a line feed. -/
theorem unlines_append {front back : List String} (hfront : front ≠ []) (hback : back ≠ []) :
    unlines (front ++ back) = unlines front ++ "\n" ++ unlines back := by
  induction front with
  | nil => exact absurd rfl hfront
  | cons line front ih =>
    rw [List.cons_append, unlines_cons line (by simp [hback])]
    cases front with
    | nil => simp
    | cons next front =>
      rw [ih (by simp), unlines_cons line (by simp)]
      simp [String.append_assoc]

/-- Joined lines may be broken within a line: what stands on either side is joined for itself. -/
theorem unlines_append_append_cons (above : List String) (last first : String)
    (later : List String) :
    unlines (above ++ (last ++ first) :: later) =
      unlines (above ++ [last]) ++ unlines (first :: later) := by
  by_cases habove : above = []
  · subst habove
    rw [List.nil_append, List.nil_append, unlines_append_cons, unlines_singleton]
  · rw [unlines_append habove (List.cons_ne_nil _ _), unlines_append habove (List.cons_ne_nil _ _),
      unlines_append_cons, unlines_singleton]
    simp only [String.append_assoc]

/-- **The pieces of two texts in a row**: the last piece of the one and the first piece of the other
are one piece. -/
theorem pieces_append {front back last first : String} {above later : List String}
    (hfront : pieces front = above ++ [last]) (hback : pieces back = first :: later) :
    pieces (front ++ back) = above ++ (last ++ first) :: later := by
  have hjoin : unlines (above ++ (last ++ first) :: later) = front ++ back := by
    rw [unlines_append_append_cons, ← hfront, ← hback, unlines_pieces, unlines_pieces]
  have hfree : ∀ piece ∈ pieces front ++ pieces back, '\n' ∉ piece.toList :=
    List.forall_mem_append.2 ⟨fun _ => lineFeed_not_mem_of_mem_pieces,
      fun _ => lineFeed_not_mem_of_mem_pieces⟩
  rw [hfront, hback, List.append_assoc] at hfree
  obtain ⟨habove, hlast, hfirst, hlater⟩ : (∀ piece ∈ above, '\n' ∉ piece.toList) ∧
      '\n' ∉ last.toList ∧ '\n' ∉ first.toList ∧ ∀ piece ∈ later, '\n' ∉ piece.toList := by
    simpa only [List.forall_mem_append, List.forall_mem_cons, List.singleton_append] using hfree
  rw [← hjoin, pieces_unlines (by simp)]
  refine List.forall_mem_append.2 ⟨habove, List.forall_mem_cons.2 ⟨?_, hlater⟩⟩
  rw [String.toList_append, List.mem_append, not_or]
  exact ⟨hlast, hfirst⟩

/-- A text that holds no line feed is part of the first piece of what it stands in front of. -/
theorem pieces_append_of_not_mem {front : String} (h : '\n' ∉ front.toList) (back : String) :
    ∃ first later, pieces back = first :: later ∧
      pieces (front ++ back) = (front ++ first) :: later := by
  obtain ⟨first, later, hback⟩ := List.exists_cons_of_ne_nil (pieces_ne_nil back)
  have hfront : pieces front = [] ++ [front] := pieces_eq_singleton h
  exact ⟨first, later, hback, pieces_append hfront hback⟩

/-- A piece is a part of the text. -/
theorem infix_of_mem_pieces {text piece : String} (h : piece ∈ pieces text) :
    piece.toList <:+: text.toList := by
  obtain ⟨above, below, hpieces⟩ := List.append_of_mem h
  obtain ⟨more, hmore⟩ := exists_unlines_cons piece below
  rw [← unlines_pieces text, hpieces]
  rcases List.eq_nil_or_concat above with rfl | ⟨_, _, rfl⟩
  · rw [List.nil_append, hmore, String.toList_append]
    exact List.infix_append [] _ _
  · rw [unlines_append (by simp) (by simp), hmore]
    simp only [String.toList_append, ← List.append_assoc]
    exact List.infix_append _ _ _

/-- What holds of texts without line feeds, and of a text below a line if it holds of the text,
holds of all texts. -/
@[elab_as_elim]
theorem induction_lineFeed {p : String → Prop} (line : ∀ line, '\n' ∉ line.toList → p line)
    (above : ∀ line back, '\n' ∉ line.toList → p back → p (line ++ "\n" ++ back))
    (text : String) : p text := by
  suffices hpieces : ∀ list ≠ [], (∀ piece ∈ list, '\n' ∉ piece.toList) → p (unlines list) by
    rw [← unlines_pieces text]
    exact hpieces _ (pieces_ne_nil text) fun piece => lineFeed_not_mem_of_mem_pieces
  intro list hne hfree
  induction list with
  | nil => exact absurd rfl hne
  | cons piece list ih =>
    obtain ⟨hpiece, hlist⟩ := List.forall_mem_cons.1 hfree
    by_cases hlast : list = []
    · subst hlast
      rw [unlines_singleton]
      exact line piece hpiece
    · rw [unlines_cons piece hlast]
      exact above piece _ hpiece (ih hlast hlist)

/-! ### Lines -/

/-- A piece of a text without the carriage return that belongs to its line ending. -/
def chomped (piece : String) : String :=
  String.ofList (chomp piece.toList)

theorem lines_eq_map_pieces (text : String) : lines text = (pieces text).map chomped := by
  simp [lines, pieces, chomped, Function.comp_def]

/-- A text without line feeds is one line. -/
theorem lines_eq_singleton {text : String} (h : '\n' ∉ text.toList) :
    lines text = [chomped text] := by
  rw [lines_eq_map_pieces, pieces_eq_singleton h, List.map_singleton]

theorem lines_append_lineFeed (front back : String) :
    lines (front ++ "\n" ++ back) = lines front ++ lines back := by
  simp only [lines_eq_map_pieces, pieces_append_lineFeed, List.map_append]

/-- A line break at the end of a text has an empty line below it. -/
theorem lines_append_break (text : String) : lines (text ++ "\n") = lines text ++ [""] := by
  rw [lines_eq_map_pieces, pieces_append_break, List.map_append, lines_eq_map_pieces]
  rfl

/-- The carriage return is all that a line may lack of its piece. -/
theorem eq_chomped_or (piece : String) : piece = chomped piece ∨ piece = chomped piece ++ "\r" := by
  have hchomp (line : List Char) : line = chomp line ∨ line = chomp line ++ ['\r'] := by
    fun_induction chomp line with
    | case1 => exact .inl rfl
    | case2 => exact .inr rfl
    | case3 c cs hne ih =>
      rw [List.cons_append]
      exact ih.imp (congrArg (c :: ·)) (congrArg (c :: ·))
  simpa [chomped, ← String.toList_inj] using hchomp piece.toList

/-- A line is a beginning of its piece. -/
theorem exists_chomped_append (piece : String) : ∃ ending, piece = chomped piece ++ ending := by
  rcases eq_chomped_or piece with h | h
  · exact ⟨"", by rw [String.append_empty, ← h]⟩
  · exact ⟨"\r", h⟩

/-- A text in front of which a line comes to its end: there is nothing, a line break, or a carriage
return and nothing behind it. -/
def EndsLine (tail : String) : Prop :=
  tail = "" ∨ tail = "\r" ∨ (∃ more, tail = "\n" ++ more) ∨ ∃ more, tail = "\r\n" ++ more

/-- Where a line comes to its end, nothing but a carriage return is left of its piece. -/
theorem EndsLine.exists_pieces {tail : String} (h : EndsLine tail) :
    ∃ ending later, pieces tail = ending :: later ∧ (ending = "" ∨ ending = "\r") := by
  rcases h with rfl | rfl | ⟨more, rfl⟩ | ⟨more, rfl⟩
  · exact ⟨"", [], by decide, .inl rfl⟩
  · exact ⟨"\r", [], by decide, .inr rfl⟩
  · exact ⟨"", _, pieces_append_lineFeed "" more, .inl rfl⟩
  · exact ⟨"\r", _, pieces_append_lineFeed "\r" more, .inr rfl⟩

theorem endsLine_unlines {ending : String} (h : ending = "" ∨ ending = "\r")
    (below : List String) : EndsLine (unlines (ending :: below)) := by
  by_cases hbelow : below = []
  · subst hbelow
    rw [unlines_singleton]
    exact h.imp_right .inl
  · rw [unlines_cons ending hbelow]
    rcases h with rfl | rfl
    · exact .inr (.inr (.inl ⟨_, rfl⟩))
    · exact .inr (.inr (.inr ⟨_, rfl⟩))

/-- **A line stands in its text up to where it ends.** -/
theorem exists_unlines_chomped (above : List String) (piece : String) (below : List String) :
    ∃ tail, unlines (above ++ piece :: below) = unlines (above ++ [chomped piece]) ++ tail ∧
      EndsLine tail := by
  obtain ⟨ending, hpiece, hending⟩ : ∃ ending, piece = chomped piece ++ ending ∧
      (ending = "" ∨ ending = "\r") := by
    rcases eq_chomped_or piece with h | h
    · exact ⟨"", by rw [String.append_empty, ← h], .inl rfl⟩
    · exact ⟨"\r", h, .inr rfl⟩
  refine ⟨unlines (ending :: below), ?_, endsLine_unlines hending below⟩
  rw [← unlines_append_append_cons, ← hpiece]

/-- A text is cut in two where its lines are. -/
theorem exists_of_lines_eq_append {text : String} {front back : List String}
    (h : lines text = front ++ back) (hfront : front ≠ []) (hback : back ≠ []) :
    ∃ above below, text = above ++ "\n" ++ below ∧ lines above = front ∧ lines below = back := by
  rw [lines_eq_map_pieces, List.map_eq_append_iff] at h
  obtain ⟨above, below, hpieces, rfl, rfl⟩ := h
  have hfree : ∀ piece ∈ above ++ below, '\n' ∉ piece.toList := by
    rw [← hpieces]
    exact fun piece => lineFeed_not_mem_of_mem_pieces
  obtain ⟨hfreeAbove, hfreeBelow⟩ := List.forall_mem_append.1 hfree
  have habove : above ≠ [] := fun hnil => hfront (by rw [hnil, List.map_nil])
  have hbelow : below ≠ [] := fun hnil => hback (by rw [hnil, List.map_nil])
  refine ⟨unlines above, unlines below, ?_, ?_, ?_⟩
  · rw [← unlines_append habove hbelow, ← hpieces, unlines_pieces]
  · rw [lines_eq_map_pieces, pieces_unlines habove hfreeAbove]
  · rw [lines_eq_map_pieces, pieces_unlines hbelow hfreeBelow]

theorem chomp_sublist (line : List Char) : (chomp line).Sublist line := by
  fun_induction chomp line with
  | case1 => exact .slnil
  | case2 => exact List.nil_sublist _
  | case3 c cs hne ih => exact ih.cons_cons c

theorem chomp_concat_return (line : List Char) : chomp (line ++ ['\r']) = line := by
  induction line with
  | nil => rfl
  | cons c cs ih =>
    rw [List.cons_append, chomp.eq_3, ih]
    simp

theorem lineFeed_not_mem_of_mem_lines {text line : String} (h : line ∈ lines text) :
    '\n' ∉ line.toList := by
  rw [lines_eq_map_pieces] at h
  obtain ⟨piece, hpiece, rfl⟩ := List.mem_map.1 h
  rw [chomped, String.toList_ofList]
  exact fun hmem => lineFeed_not_mem_of_mem_pieces hpiece ((chomp_sublist _).subset hmem)

/-- A text that can stand as a line: it has no line feed, and no carriage return at its end. -/
def IsLine (text : String) : Prop :=
  '\n' ∉ text.toList ∧ text.toList.getLast? ≠ some '\r'

instance : DecidablePred IsLine :=
  fun _ => inferInstanceAs (Decidable (_ ∧ _))

theorem IsLine.append {front back : String} (hfront : IsLine front) (hback : IsLine back) :
    IsLine (front ++ back) := by
  refine ⟨?_, ?_⟩
  · simp only [String.toList_append, List.mem_append, not_or]
    exact ⟨hfront.1, hback.1⟩
  · rw [String.toList_append, List.getLast?_append]
    cases h : back.toList.getLast? with
    | none => simpa using hfront.2
    | some c => simpa [h] using hback.2

/-- A line that does not end with a carriage return keeps all its characters. -/
theorem chomp_eq_self {line : List Char} (h : line.getLast? ≠ some '\r') : chomp line = line := by
  fun_induction chomp line with
  | case1 => rfl
  | case2 => simp at h
  | case3 c cs hne ih =>
    have hcs : cs.getLast? ≠ some '\r' := by
      intro hlast
      refine h ?_
      rw [List.getLast?_cons, hlast]
      rfl
    rw [ih hcs]

/-- **Cutting undoes joining.** -/
theorem lines_unlines {list : List String} (hne : list ≠ []) (h : ∀ line ∈ list, IsLine line) :
    lines (unlines list) = list := by
  rw [lines_eq_map_pieces, pieces_unlines hne fun line hline => (h line hline).1]
  refine (List.map_congr_left fun line hline => ?_).trans (List.map_id list)
  simp [chomped, chomp_eq_self (h line hline).2]

/-- A carriage return below which nothing stands is all that is left of a line ending. -/
theorem lines_append_return {line : String} (h : '\n' ∉ line.toList) :
    lines (line ++ "\r") = [line] := by
  rw [lines_eq_singleton (by simpa using h)]
  simp [chomped, chomp_concat_return]

/-- Texts without line feeds that are each ended by a carriage return and a line feed are the
lines, and a last line without characters follows them. -/
theorem lines_join_crlf {list : List String} (h : ∀ line ∈ list, '\n' ∉ line.toList) :
    lines (String.join (list.map (· ++ "\r\n"))) = list ++ [""] := by
  induction list with
  | nil => decide
  | cons line list ih =>
    obtain ⟨hline, hlist⟩ := List.forall_mem_cons.1 h
    have hend : line ++ "\r\n" = line ++ "\r" ++ "\n" := by
      rw [String.append_assoc]
      rfl
    rw [List.map_cons, String.join_cons, hend, lines_append_lineFeed, lines_append_return hline,
      ih hlist]
    rfl

end LinePatch.Text
