import LinePatch.Json.Number
import LinePatch.Json.Value

/-!
# Records in JSON

Records are written as objects. A name that the record does not know is passed over, a name that
it knows stands there once. Instead of the object, the array of the fields in their order is
read as well. A value that is one of several kinds carries a tag, which names its kind and with
it the further fields. As the tag may stand anywhere, such a value is looked at as a whole: it is
refused if anything inside it is unreadable, or if it is nested too deeply. What is inside it may
then be written more freely.

## Main definitions

* `Json.required`, `Json.optional`: the fields of a record.
* `Json.Value.record?`, `Json.Value.tagged?`: the fields of a value that is a record, or is
  tagged.
* `Json.Value.ofEnum`, `Json.Value.enum?`, `Json.Value.named?`: a value without fields that is one
  of several kinds.
-/

namespace LinePatch.Json

/-- The fields of an object. -/
abbrev Fields : Type := List (String × Value)

variable {α : Type}

/-- The values that fields give to a name. -/
def given (name : String) (fields : Fields) : List Value :=
  fields.filterMap fun field => if field.1 = name then some field.2 else none

/-- A field that a record has to have. -/
def required (name : String) (read : Value → Option α) (fields : Fields) : Option α :=
  match given name fields with
  | [value] => read value
  | _ => none

/-- A field that a record may lack, in which case it has this value. -/
def optional (name : String) (read : Value → Option α) (missing : α) (fields : Fields) :
    Option α :=
  match given name fields with
  | [] => some missing
  | [value] => read value
  | _ => none

namespace Value

/-- The fields of a record with these names. Of an array, the items are the fields in order, of
which the last ones may be missing from a record that `mayLack` fields. -/
def record? (names : List String) (mayLack : Bool) : Value → Option Fields
  | object fields => some fields
  | array items =>
    if items.length = names.length ∨ (mayLack ∧ items.length < names.length) then
      some (names.zip items)
    else none
  | _ => none

/-- A text. -/
def string? : Value → Option String
  | string text => some text
  | _ => none

/-- A text, or nothing. -/
def stringOrNull? : Value → Option (Option String)
  | string text => some (some text)
  | null => some none
  | _ => none

/-- A truth value. -/
def bool? : Value → Option Bool
  | bool value => some value
  | _ => none

/-- A count. -/
def count? : Value → Option Nat
  | count n => some n
  | _ => none

/-- The items of an array, each of them read. -/
def list? (read : Value → Option α) : Value → Option (List α)
  | array items => items.mapM read
  | _ => none

/-- The fields of an object, the values of all of them read. -/
def entries? (read : Value → Option α) : Value → Option (List (String × α))
  | object fields => fields.mapM fun field => (read field.2).map (field.1, ·)
  | _ => none

/-- A value without fields that is one of several kinds. -/
def ofEnum (name : String) : Value := string name

/-- What a name stands for. Inside a tagged value its place among the names will do. -/
def named? (names : List (String × α)) (inner : Bool) : Value → Option α
  | string name => names.lookup name
  | count place => if inner then (names[place]?).map Prod.snd else none
  | _ => none

/-- Whether a value stands for nothing. Inside a tagged value the empty object does, too. -/
def isNothing (inner : Bool) : Value → Bool
  | null => true
  | object [] => inner
  | _ => false

/-- The kind of a value without fields: its name, or an object with nothing under its name. -/
def enum? (kinds : List (String × α)) (inner : Bool) : Value → Option α
  | string name => kinds.lookup name
  | object [(name, value)] => if value.isNothing inner then kinds.lookup name else none
  | _ => none

/-- Whether a value that is neither array nor object can be looked at. Of the numbers, those can
that are read as finite doubles. -/
def isReadable : Value → Bool
  | number written => (Number.ofText? written.toList).any Number.isFinite
  | unreadable => false
  | _ => true

/-- The greatest number of arrays and objects that may stand around a value. -/
def maxHeight : Nat := 127

/-- Whether a value can be looked at as a whole. -/
def isWhole (value : Value) : Bool :=
  decide (value.height ≤ maxHeight) && value.allLeaves isReadable

/-- A kind of tagged value: the tag, and the names of the further fields. -/
abbrev Kind : Type := String × List String

/-- The tag of a value and its fields. Of an array, the first item is the tag. -/
def tagged? (key : String) (kinds : List Kind) (inner : Bool) (value : Value) :
    Option (String × Fields) :=
  let kind? := named? (kinds.map fun kind => (kind.1, kind)) inner
  if value.isWhole then
    match value with
    | object fields => (required key kind? fields).map fun kind => (kind.1, fields)
    | array (tag :: items) => do
      let kind ← kind? tag
      if items.length = kind.2.length then some (kind.1, kind.2.zip items) else none
    | _ => none
  else none

end Value

end LinePatch.Json
