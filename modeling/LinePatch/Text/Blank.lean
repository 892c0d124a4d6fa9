/-!
# Blank characters

The characters with the Unicode property `White_Space`, and texts freed of them at both ends.
The space without width and the byte order mark do not have the property, nor do the four
information separators below the space.

## Main definitions

* `Text.isBlank`: the property, as a table of ranges.
* `Text.trim`: a text without the blanks at its ends.
-/

namespace LinePatch.Text

/-- The ranges of code points with the property `White_Space`, both ends included. -/
def blankRanges : List (Nat × Nat) :=
  [(0x0009, 0x000D), (0x0020, 0x0020), (0x0085, 0x0085), (0x00A0, 0x00A0), (0x1680, 0x1680),
    (0x2000, 0x200A), (0x2028, 0x2029), (0x202F, 0x202F), (0x205F, 0x205F), (0x3000, 0x3000)]

/-- Whether a character is blank. -/
def isBlank (c : Char) : Bool :=
  blankRanges.any fun (first, last) => first ≤ c.toNat && c.toNat ≤ last

/-- A text without the blanks at its two ends. -/
def trim (text : String) : String :=
  String.ofList (text.toList.dropWhile isBlank |>.reverse.dropWhile isBlank |>.reverse)

end LinePatch.Text
