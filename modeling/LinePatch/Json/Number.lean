import LinePatch.Json.Double

/-!
# JSON numbers

The grammar of numbers, and the numbers that fit the range of a double.

## Main definitions

* `Json.Number`: the parts of a written number.
* `Json.Number.ofText?`: the parts of a text that is a number.
* `Json.Number.isFinite`: whether a number is read as a finite double.
-/

namespace LinePatch.Json

/-- A written number: its sign, the digits before and after the point, and the exponent with its
sign. A part that is not written has no digits. -/
structure Number where
  negative : Bool
  whole : List Char
  fraction : List Char
  exponentNegative : Bool
  exponent : List Char
  deriving DecidableEq, Repr

namespace Number

/-- The digits at the beginning of a text, and what follows them. There is at least one. -/
def digits? (text : List Char) : Option (List Char × List Char) :=
  match text.takeWhile Char.isDigit with
  | [] => none
  | digits => some (digits, text.dropWhile Char.isDigit)

/-- The digits before the point: a zero stands there alone. -/
def whole? : List Char → Option (List Char × List Char)
  | '0' :: rest => some (['0'], rest)
  | text => digits? text

/-- The digits after the point, if there is a point. -/
def fraction? : List Char → Option (List Char × List Char)
  | '.' :: rest => digits? rest
  | text => some ([], text)

/-- The sign and the digits of the exponent, if there is one. -/
def exponent? : List Char → Option (Bool × List Char × List Char)
  | c :: rest =>
    if c = 'e' ∨ c = 'E' then
      match rest with
      | '-' :: rest => (digits? rest).map (true, ·)
      | '+' :: rest => (digits? rest).map (false, ·)
      | rest => (digits? rest).map (false, ·)
    else some (false, [], c :: rest)
  | [] => some (false, [], [])

/-- The parts of a text that is a number. -/
def ofText? (text : List Char) : Option Number := do
  let (negative, text) :=
    match text with
    | '-' :: rest => (true, rest)
    | _ => (false, text)
  let (whole, text) ← whole? text
  let (fraction, text) ← fraction? text
  let (exponentNegative, exponent, text) ← exponent? text
  if text.isEmpty then some ⟨negative, whole, fraction, exponentNegative, exponent⟩ else none

/-- The natural number that digits are written for. -/
def value (digits : List Char) : Nat :=
  Nat.ofDigitChars 10 digits 0

/-- Whether a number is written as digits alone and fits a word of 64 bits. -/
def isCount (number : Number) : Bool :=
  !number.negative && number.fraction.isEmpty && number.exponent.isEmpty &&
    decide (value number.whole < UInt64.size)

/-- Takes digits into a number as long as it fits a word of 64 bits, and leaves the others. -/
def absorb (n : Nat) : List Char → Nat × List Char
  | [] => (n, [])
  | digit :: digits =>
    let next := Nat.ofDigitChars 10 [digit] n
    if next < UInt64.size then absorb next digits else (n, digit :: digits)

/-- The greatest power of ten that a double holds. -/
def maxScale : Nat := 308

/-- Whether a number is read as a double that is finite. It is read as its leading digits, as many
as fit a word, times a power of ten. Both are rounded to doubles before they are multiplied. -/
def isFinite (number : Number) : Bool :=
  let (whole, moreWhole) := absorb 0 number.whole
  let (digits, moreFraction) := absorb whole number.fraction
  let exponent : Int :=
    if number.exponentNegative then -(value number.exponent : Int) else value number.exponent
  let scale : Int := exponent + moreWhole.length + moreFraction.length - number.fraction.length
  digits == 0 || scale < 0 ||
    (scale ≤ maxScale && Double.round digits * Double.round (Nat.pow 10 scale.toNat) < Double.bound)

end Number

end LinePatch.Json
