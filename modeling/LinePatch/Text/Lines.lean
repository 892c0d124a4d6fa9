/-!
# Lines of a text

A text is cut at its line feeds, and a carriage return in front of a line feed, or at the end of
the text, belongs to the line ending. A text that ends with a line feed therefore ends with an
empty line, so that nothing but carriage returns is lost: joining the lines gives the text back
with plain line feeds.

## Main definitions

* `Text.pieces`: the parts that the line feeds of a text separate, with their carriage returns.
* `Text.lines`, `Text.unlines`: cutting a text and joining its lines.
* `Text.after?`: what follows a given beginning of a text.

## Main results

* `Text.unlines_pieces`: joining the pieces of a text gives it back.
-/

namespace LinePatch.Text

/-- The parts into which the line feeds of a text cut it. -/
def pieces (text : String) : List String :=
  (text.toList.splitOn '\n').map String.ofList

/-- A line without the carriage return at its end, if it has one. -/
def chomp : List Char → List Char
  | [] => []
  | ['\r'] => []
  | c :: cs => c :: chomp cs

/-- The lines of a text. -/
def lines (text : String) : List String :=
  (text.toList.splitOn '\n').map fun line => String.ofList (chomp line)

/-- Lines joined by line feeds. -/
def unlines (lines : List String) : String :=
  String.ofList (['\n'].intercalate (lines.map String.toList))

/-- What follows `mark` in a text that begins with it. -/
def after? (mark text : String) : Option String :=
  (mark.toList.isPrefixOf? text.toList).map String.ofList

@[simp] theorem nil_isPrefixOf? (text : List Char) : [].isPrefixOf? text = some text := rfl

@[simp] theorem cons_isPrefixOf?_nil (c : Char) (mark : List Char) :
    (c :: mark).isPrefixOf? [] = none := rfl

@[simp] theorem cons_isPrefixOf?_cons (c d : Char) (mark text : List Char) :
    (c :: mark).isPrefixOf? (d :: text) = if c == d then mark.isPrefixOf? text else none := rfl

theorem isPrefixOf?_eq_some_iff {mark text rest : List Char} :
    mark.isPrefixOf? text = some rest ↔ text = mark ++ rest := by
  induction mark generalizing text with
  | nil => simp
  | cons c mark ih =>
    cases text with
    | nil => simp
    | cons d text =>
      by_cases h : c = d
      · subst h
        simp [ih]
      · have h' : d ≠ c := fun e => h e.symm
        simp [h, h']

/-- A text is a beginning of it followed by what comes after that. -/
theorem after?_eq_some_iff {mark text rest : String} :
    after? mark text = some rest ↔ text = mark ++ rest := by
  simp only [after?, Option.map_eq_some_iff, isPrefixOf?_eq_some_iff]
  constructor
  · rintro ⟨cs, h, rfl⟩
    simp [← String.toList_inj, h]
  · rintro rfl
    exact ⟨rest.toList, by simp, by simp⟩

theorem append_of_after? {mark text rest : String} (h : after? mark text = some rest) :
    mark ++ rest = text :=
  (after?_eq_some_iff.1 h).symm

/-- **Nothing is lost in cutting a text.** -/
@[simp] theorem unlines_pieces (text : String) : unlines (pieces text) = text := by
  simp [unlines, pieces, Function.comp_def]

theorem lines_ne_nil (text : String) : lines text ≠ [] := by
  simp [lines, List.splitOn, List.splitOnP_ne_nil]

@[simp] theorem unlines_nil : unlines [] = "" := rfl

@[simp] theorem unlines_singleton (line : String) : unlines [line] = line := by
  simp [unlines]

end LinePatch.Text
