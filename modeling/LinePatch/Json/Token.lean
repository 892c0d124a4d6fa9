import LinePatch.Json.Number
import LinePatch.Json.Value

/-!
# Tokens of JSON texts

A JSON text is cut into tokens by an automaton that reads it character by character. It is
between tokens, inside a word or inside a string. A word is a longest run of the characters that
numbers and the three names are made of. What the characters of a string stand for is worked out
when the string has ended.

## Main definitions

* `Json.Token`: punctuation, or a value that is neither array nor object.
* `Json.stringToken?`: the characters that the inside of a string stands for, as a token.
* `Json.tokens?`: the tokens of a text.
-/

namespace LinePatch.Json

/-- A token of a JSON text. -/
inductive Token where
  | beginArray
  | endArray
  | beginObject
  | endObject
  | colon
  | comma
  /-- A value that is neither array nor object. -/
  | leaf (value : Value)
  deriving Repr, Inhabited

/-! ### Strings -/

/-- The value of a hexadecimal digit. -/
def hexDigit? (c : Char) : Option Nat :=
  if '0' ≤ c ∧ c ≤ '9' then some (c.toNat - '0'.toNat)
  else if 'a' ≤ c ∧ c ≤ 'f' then some (c.toNat - 'a'.toNat + 10)
  else if 'A' ≤ c ∧ c ≤ 'F' then some (c.toNat - 'A'.toNat + 10)
  else none

/-- The number that four hexadecimal digits are written for. -/
def hexNumber? (a b c d : Char) : Option Nat := do
  return (((← hexDigit? a) * 16 + (← hexDigit? b)) * 16 + (← hexDigit? c)) * 16 + (← hexDigit? d)

/-- The character that a short escape stands for. -/
def shortEscape? (c : Char) : Option Char :=
  match c with
  | '"' => some '"'
  | '\\' => some '\\'
  | '/' => some '/'
  | 'b' => some '\x08'
  | 'f' => some '\x0c'
  | 'n' => some '\n'
  | 'r' => some '\r'
  | 't' => some '\t'
  | _ => none

/-- What one place in a string stands for: a character, or a number of sixteen bits. -/
inductive Piece where
  | char (c : Char)
  | unit (value : Nat)
  deriving DecidableEq, Repr

/-- The places of a string. Control characters do not stand in a string as they are. -/
def pieces? : List Char → Option (List Piece)
  | [] => some []
  | '\\' :: 'u' :: a :: b :: c :: d :: rest => do
    let value ← hexNumber? a b c d
    return .unit value :: (← pieces? rest)
  | '\\' :: c :: rest => do
    let char ← shortEscape? c
    return .char char :: (← pieces? rest)
  | c :: rest =>
    if c = '\\' ∨ c < ' ' then none else (pieces? rest).map (.char c :: ·)

def isHighSurrogate (value : Nat) : Bool := 0xD800 ≤ value && value < 0xDC00

def isLowSurrogate (value : Nat) : Bool := 0xDC00 ≤ value && value < 0xE000

/-- The characters of places, if every half of a surrogate pair has its other half. -/
def assemble? : List Piece → Option (List Char)
  | [] => some []
  | .char c :: rest => (assemble? rest).map (c :: ·)
  | .unit high :: .unit low :: rest =>
    if isHighSurrogate high then
      if isLowSurrogate low then
        (assemble? rest).map
          (Char.ofNat (0x10000 + (high - 0xD800) * 0x400 + (low - 0xDC00)) :: ·)
      else none
    else if isLowSurrogate high then none
    else (assemble? (.unit low :: rest)).map (Char.ofNat high :: ·)
  | .unit value :: rest =>
    if isHighSurrogate value || isLowSurrogate value then none
    else (assemble? rest).map (Char.ofNat value :: ·)

/-- The token of a string with this inside. -/
def stringToken? (inside : List Char) : Option Token :=
  (pieces? inside).map fun pieces =>
    match assemble? pieces with
    | some chars => .leaf (.string (String.ofList chars))
    | none => .leaf .unreadable

/-! ### Words -/

/-- Whether a character is one that words are made of. -/
def isWordChar (c : Char) : Bool :=
  c.isAlphanum || c == '+' || c == '-' || c == '.'

/-- The token of a number. -/
def numberToken? (word : List Char) : Option Token :=
  (Number.ofText? word).map fun number =>
    if number.isCount then .leaf (.count (Number.value number.whole))
    else .leaf (.number (String.ofList word))

/-- The token of a word. -/
def wordToken? (word : List Char) : Option Token :=
  if word = "null".toList then some (.leaf .null)
  else if word = "true".toList then some (.leaf (.bool true))
  else if word = "false".toList then some (.leaf (.bool false))
  else numberToken? word

/-! ### The automaton -/

/-- Where the automaton is. What it has read of a token is kept with the last character in
front. -/
inductive Scan where
  | between
  | word (read : List Char)
  | string (read : List Char) (escaped : Bool)
  deriving DecidableEq, Repr

/-- The blanks of a JSON text. -/
def isSpace (c : Char) : Bool :=
  c == ' ' || c == '\t' || c == '\n' || c == '\r'

/-- The tokens of one character. -/
def punctuation? (c : Char) : Option Token :=
  match c with
  | '[' => some .beginArray
  | ']' => some .endArray
  | '{' => some .beginObject
  | '}' => some .endObject
  | ':' => some .colon
  | ',' => some .comma
  | _ => none

/-- What becomes of a character between tokens: the tokens that it completes, and where it
leads. -/
def enter? (c : Char) : Option (List Token × Scan) :=
  if isSpace c then some ([], .between)
  else if c = '"' then some ([], .string [] false)
  else if isWordChar c then some ([], .word [c])
  else (punctuation? c).map fun token => ([token], .between)

/-- What becomes of a character. -/
def step? : Scan → Char → Option (List Token × Scan)
  | .between, c => enter? c
  | .word read, c =>
    if isWordChar c then some ([], .word (c :: read))
    else do
      let token ← wordToken? read.reverse
      let (tokens, scan) ← enter? c
      return (token :: tokens, scan)
  | .string read true, c => some ([], .string (c :: read) false)
  | .string read false, c =>
    if c = '"' then (stringToken? read.reverse).map fun token => ([token], .between)
    else some ([], .string (c :: read) (c = '\\'))

/-- What becomes of the end of a text. -/
def finish? : Scan → Option (List Token)
  | .between => some []
  | .word read => (wordToken? read.reverse).map ([·])
  | .string .. => none

/-- The tokens of what follows. -/
def scan? : Scan → List Char → Option (List Token)
  | scan, [] => finish? scan
  | scan, c :: rest => do
    let (tokens, scan) ← step? scan c
    return tokens ++ (← scan? scan rest)

/-- The tokens of a text. -/
def tokens? (text : String) : Option (List Token) :=
  scan? .between text.toList

end LinePatch.Json
