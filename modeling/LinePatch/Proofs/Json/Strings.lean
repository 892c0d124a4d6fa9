import LinePatch.Json.Token
import LinePatch.Json.Writer

/-!
# Strings as they are written

Every character of a text is written in a string as one place: as itself, as a short escape, or, if
it is another control character, as the number of the character. Whichever it is, the place is read
as a place of its own, and stands for the character. So the inside of a written string stands for
the text, and its end is the first quote that is not escaped.

## Main results

* `Json.exists_piece_escape`: one character, written and read.
* `Json.stringToken?_flatMap_escape`: the inside of a written string.
* `Json.scan?_flatMap_escape`: where the inside of a written string ends.
-/

namespace LinePatch.Json

/-! ### Places -/

/-- The number of a control character is read from two hexadecimal digits. -/
theorem hexNumber?_hexChar {n : Nat} (h : n < 32) :
    hexNumber? '0' '0' (hexChar (n / 16)) (hexChar (n % 16)) = some n := by
  have hall : ∀ n < 32, hexNumber? '0' '0' (hexChar (n / 16)) (hexChar (n % 16)) = some n := by
    decide
  exact hall n h

/-- A number that is not half of a surrogate pair stands for a character alone. -/
theorem assemble?_unit {value : Nat} (hhigh : isHighSurrogate value = false)
    (hlow : isLowSurrogate value = false) (later : List Piece) :
    assemble? (.unit value :: later) = (assemble? later).map (Char.ofNat value :: ·) := by
  cases later with
  | nil => simp [assemble?, hhigh, hlow]
  | cons piece later => cases piece <;> simp [assemble?, hhigh, hlow]

/-- **A written character is one place**, whatever follows it, and the place stands for it. -/
theorem exists_piece_escape (c : Char) :
    ∃ piece, (∀ rest, pieces? (escape c ++ rest) = (pieces? rest).map (piece :: ·)) ∧
      ∀ later, assemble? (piece :: later) = (assemble? later).map (c :: ·) := by
  unfold escape
  split
  case h_8 hquote hbackslash _ _ _ _ _ =>
    split
    · rename_i hcontrol
      have hnumber : c.toNat < 32 := hcontrol
      have hhigh : isHighSurrogate c.toNat = false := by
        simp only [isHighSurrogate, Bool.and_eq_false_iff, decide_eq_false_iff_not]
        omega
      have hlow : isLowSurrogate c.toNat = false := by
        simp only [isLowSurrogate, Bool.and_eq_false_iff, decide_eq_false_iff_not]
        omega
      refine ⟨.unit c.toNat, fun rest => ?_, fun later => ?_⟩
      · cases hrest : pieces? rest <;> simp [pieces?, hexNumber?_hexChar hnumber, hrest]
      · rw [assemble?_unit hhigh hlow, Char.ofNat_toNat]
    · rename_i hcontrol
      refine ⟨.char c, fun rest => ?_, fun later => rfl⟩
      rw [List.singleton_append, pieces?.eq_4 _ _ (fun _ _ _ _ _ h => absurd h hbackslash)
        (fun _ _ h => absurd h hbackslash), if_neg (not_or.2 ⟨hbackslash, hcontrol⟩)]
  all_goals
    refine ⟨.char _, fun rest => ?_, fun later => rfl⟩
    cases hrest : pieces? rest <;> simp [pieces?, shortEscape?, hrest]

theorem exists_pieces_flatMap_escape (chars : List Char) :
    ∃ pieces, pieces? (chars.flatMap escape) = some pieces ∧ assemble? pieces = some chars := by
  induction chars with
  | nil => exact ⟨[], rfl, rfl⟩
  | cons c chars ih =>
    obtain ⟨pieces, hpieces, hchars⟩ := ih
    obtain ⟨piece, hread, hstands⟩ := exists_piece_escape c
    refine ⟨piece :: pieces, ?_, ?_⟩
    · rw [List.flatMap_cons, hread, hpieces, Option.map_some]
    · rw [hstands, hchars, Option.map_some]

/-- **The inside of a written string stands for the text.** -/
theorem stringToken?_flatMap_escape (text : String) :
    stringToken? (text.toList.flatMap escape) = some (.leaf (.string text)) := by
  obtain ⟨pieces, hpieces, hchars⟩ := exists_pieces_flatMap_escape text.toList
  simp [stringToken?, hpieces, hchars]

/-! ### The end of a string -/

/-- A character that is neither a quote nor a backslash is inside the string. -/
theorem scan?_string_cons {c : Char} (hquote : c ≠ '"') (hbackslash : c ≠ '\\')
    (read rest : List Char) :
    scan? (.string read false) (c :: rest) = scan? (.string (c :: read) false) rest := by
  simp [scan?, step?, hquote, hbackslash]

/-- A backslash and the character behind it are inside the string. -/
theorem scan?_string_escaped (c : Char) (read rest : List Char) :
    scan? (.string read false) ('\\' :: c :: rest) =
      scan? (.string (c :: '\\' :: read) false) rest := by
  simp [scan?, step?]

theorem hexChar_ne {n : Nat} (h : n < 32) : hexChar (n / 16) ≠ '"' ∧ hexChar (n / 16) ≠ '\\' ∧
    hexChar (n % 16) ≠ '"' ∧ hexChar (n % 16) ≠ '\\' := by
  have hall : ∀ n < 32, hexChar (n / 16) ≠ '"' ∧ hexChar (n / 16) ≠ '\\' ∧
      hexChar (n % 16) ≠ '"' ∧ hexChar (n % 16) ≠ '\\' := by
    decide
  exact hall n h

/-- A written character is inside the string. -/
theorem scan?_escape (c : Char) (read rest : List Char) :
    scan? (.string read false) (escape c ++ rest) =
      scan? (.string ((escape c).reverse ++ read) false) rest := by
  unfold escape
  split
  case h_8 hquote hbackslash _ _ _ _ _ =>
    split
    · rename_i hcontrol
      obtain ⟨hquote, hbackslash, hquote', hbackslash'⟩ := hexChar_ne (n := c.toNat) hcontrol
      simp only [List.cons_append, List.nil_append, List.reverse_cons, List.reverse_nil]
      rw [scan?_string_escaped, scan?_string_cons (by decide) (by decide),
        scan?_string_cons (by decide) (by decide), scan?_string_cons hquote hbackslash,
        scan?_string_cons hquote' hbackslash']
    · exact scan?_string_cons hquote hbackslash read rest
  all_goals exact scan?_string_escaped _ read rest

/-- **The inside of a written string ends at the quote behind it.** -/
theorem scan?_flatMap_escape (chars read rest : List Char) :
    scan? (.string read false) (chars.flatMap escape ++ '"' :: rest) =
      (stringToken? (read.reverse ++ chars.flatMap escape)).bind fun token =>
        (scan? .between rest).map (token :: ·) := by
  induction chars generalizing read with
  | nil =>
    simp only [List.flatMap_nil, List.nil_append, List.append_nil, scan?, step?, if_true]
    cases stringToken? read.reverse <;> cases hrest : scan? .between rest <;> simp [hrest]
  | cons c chars ih =>
    rw [List.flatMap_cons, List.append_assoc, scan?_escape, ih, List.reverse_append,
      List.reverse_reverse, List.append_assoc]

/-- **A written string is one token.** -/
theorem scan?_quote (text : String) (rest : List Char) :
    scan? .between (quote text ++ rest) =
      (scan? .between rest).map (.leaf (.string text) :: ·) := by
  have henter : scan? .between (quote text ++ rest) =
      scan? (.string [] false) (text.toList.flatMap escape ++ '"' :: rest) := by
    simp [quote, scan?, step?, enter?, isSpace]
  rw [henter, scan?_flatMap_escape, List.reverse_nil, List.nil_append,
    stringToken?_flatMap_escape, Option.bind_some]

/-- No line break stands in a written string. -/
theorem lineFeed_not_mem_quote (text : String) : '\n' ∉ quote text := by
  have hescape : ∀ c, '\n' ∉ escape c := by
    intro c
    unfold escape
    split
    case h_8 _ _ _ _ hline _ _ =>
      split
      · rename_i hcontrol
        have hall : ∀ n < 32, '\n' ≠ hexChar (n / 16) ∧ '\n' ≠ hexChar (n % 16) := by decide
        simpa using hall c.toNat hcontrol
      · simpa [eq_comm] using hline
    all_goals decide
  simp only [quote, List.cons_append, List.mem_cons, List.mem_append, List.mem_flatMap,
    not_or, not_exists, not_and]
  exact ⟨by decide, fun c _ => hescape c, by decide⟩

end LinePatch.Json
