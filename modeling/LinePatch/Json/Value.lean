/-!
# JSON values

The values of the JSON notation as far as the formats of this library need them. A number that is
written as digits alone, and fits a word of 64 bits, is a count. Every other number is kept as it
is written. A string may be escaped in such a way that half of a surrogate pair is left, and then
it stands for no text. That makes a value unreadable, but it may stand where a format does not
look.

## Main definitions

* `Json.Value`: the values.
* `Json.Value.height`: how many arrays and objects stand around the innermost value.
-/

namespace LinePatch.Json

/-- A JSON value. The fields of an object keep their order, and a name may occur twice. -/
inductive Value where
  | null
  | bool (value : Bool)
  | count (value : Nat)
  /-- A number that is not a count, as it is written. -/
  | number (written : String)
  | string (text : String)
  | array (items : List Value)
  | object (fields : List (String × Value))
  /-- A string that stands for no text, or an object with such a name. -/
  | unreadable
  deriving Repr, Inhabited

namespace Value

mutual

/-- How many arrays and objects stand around the innermost value, itself included. -/
def height : Value → Nat
  | array items => heightItems items + 1
  | object fields => heightFields fields + 1
  | _ => 0

def heightItems : List Value → Nat
  | [] => 0
  | item :: items => max item.height (heightItems items)

def heightFields : List (String × Value) → Nat
  | [] => 0
  | (_, value) :: fields => max value.height (heightFields fields)

end

mutual

/-- Whether a condition holds of every value inside a value that is neither array nor object. -/
def allLeaves (holds : Value → Bool) : Value → Bool
  | array items => allItems holds items
  | object fields => allFields holds fields
  | leaf => holds leaf

def allItems (holds : Value → Bool) : List Value → Bool
  | [] => true
  | item :: items => item.allLeaves holds && allItems holds items

def allFields (holds : Value → Bool) : List (String × Value) → Bool
  | [] => true
  | (_, value) :: fields => value.allLeaves holds && allFields holds fields

end

end Value

end LinePatch.Json
