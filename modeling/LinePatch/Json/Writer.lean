import LinePatch.Json.Value

/-!
# Writing JSON values

Values are written on one line without blanks, or over several lines with two blanks for each
level. An array or object without contents is written as two brackets either way. In strings the
quote, the backslash and the control characters below the space are escaped, and nothing else. A
value that is unreadable is written as a string with half of a surrogate pair.

## Main definitions

* `Json.Layout`: on one line or over several.
* `Json.Value.toText`: the text of a value.
-/

namespace LinePatch.Json

/-- How a value is laid out. -/
inductive Layout where
  | compact
  | pretty
  deriving DecidableEq, Repr, Inhabited

namespace Layout

/-- What stands between two parts, the second of which is on this level. -/
def newLine : Layout → Nat → List Char
  | compact, _ => []
  | pretty, level => '\n' :: List.replicate (2 * level) ' '

/-- What stands between a name and its value. -/
def colon : Layout → List Char
  | compact => [':']
  | pretty => [':', ' ']

end Layout

/-- The hexadecimal digit of a number below sixteen. -/
def hexChar (n : Nat) : Char :=
  Nat.digitChar n

/-- A character as it is written in a string. -/
def escape (c : Char) : List Char :=
  match c with
  | '"' => ['\\', '"']
  | '\\' => ['\\', '\\']
  | '\x08' => ['\\', 'b']
  | '\x0c' => ['\\', 'f']
  | '\n' => ['\\', 'n']
  | '\r' => ['\\', 'r']
  | '\t' => ['\\', 't']
  | c =>
    if c < ' ' then ['\\', 'u', '0', '0', hexChar (c.toNat / 16), hexChar (c.toNat % 16)]
    else [c]

/-- A text as a string. -/
def quote (text : String) : List Char :=
  '"' :: text.toList.flatMap escape ++ ['"']

namespace Value

mutual

/-- A value on this level. -/
def write (layout : Layout) (level : Nat) : Value → List Char
  | null => "null".toList
  | bool true => "true".toList
  | bool false => "false".toList
  | count n => Nat.toDigits 10 n
  | string text => quote text
  | array [] => ['[', ']']
  | array (item :: items) =>
    '[' :: layout.newLine (level + 1) ++ item.write layout (level + 1) ++
      writeItems layout (level + 1) items ++ layout.newLine level ++ [']']
  | object [] => ['{', '}']
  | object ((name, value) :: fields) =>
    '{' :: layout.newLine (level + 1) ++ quote name ++ layout.colon ++
      value.write layout (level + 1) ++ writeFields layout (level + 1) fields ++
      layout.newLine level ++ ['}']
  | number written => written.toList
  | unreadable => ['"', '\\', 'u', 'd', '8', '0', '0', '"']

/-- The further items of an array, each after a comma. -/
def writeItems (layout : Layout) (level : Nat) : List Value → List Char
  | [] => []
  | item :: items =>
    ',' :: layout.newLine level ++ item.write layout level ++ writeItems layout level items

/-- The further fields of an object, each after a comma. -/
def writeFields (layout : Layout) (level : Nat) : List (String × Value) → List Char
  | [] => []
  | (name, value) :: fields =>
    ',' :: layout.newLine level ++ quote name ++ layout.colon ++ value.write layout level ++
      writeFields layout level fields

end

/-- The text of a value. -/
def toText (layout : Layout) (value : Value) : String :=
  String.ofList (value.write layout 0)

end Value

end LinePatch.Json
