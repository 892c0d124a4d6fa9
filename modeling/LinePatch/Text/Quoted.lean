import LinePatch.Text.Printable

/-!
# Quoted texts

A text in quotes as a log shows it, so that every character can be told: characters that cannot
be printed, or are drawn on their neighbour, are written as their numbers.

## Main definitions

* `Text.quoted`: a text in quotes.
-/

namespace LinePatch.Text

/-- A character inside quotes. -/
def shownInQuotes (c : Char) : String :=
  match c with
  | '\x00' => "\\0"
  | '\t' => "\\t"
  | '\r' => "\\r"
  | '\n' => "\\n"
  | '"' => "\\\""
  | '\\' => "\\\\"
  | c =>
    if isExtending c || isUnprintable c then
      "\\u\x7b" ++ String.ofList (Nat.toDigits 16 c.toNat) ++ "\x7d"
    else String.singleton c

/-- A text in quotes. -/
def quoted (text : String) : String :=
  "\"" ++ String.join (text.toList.map shownInQuotes) ++ "\""

end LinePatch.Text
