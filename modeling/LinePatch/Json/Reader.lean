import LinePatch.Json.Token

/-!
# Reading JSON values

A value is put together from tokens by a machine that keeps the arrays and objects that are open.
Every token is read once, so that reading is a fold.

## Main definitions

* `Json.Open`, `Json.State`: an open array or object, and what the machine expects next.
* `Json.Value.ofText?`: the value of a text.
-/

namespace LinePatch.Json

/-- A name of an object, if it stands for a text. -/
abbrev Name : Type := Option String

/-- The object with these fields. -/
def Value.ofFields (fields : List (Name × Value)) : Value :=
  match fields.mapM fun field => field.1.map (·, field.2) with
  | some fields => .object fields
  | none => .unreadable

/-- An array or object that is still open, with the last of its contents in front. -/
inductive Open where
  | array (items : List Value)
  /-- An object that waits for the value of `name`. -/
  | object (fields : List (Name × Value)) (name : Name)
  deriving Inhabited

/-- What is expected next, inside the arrays and objects of a stack. -/
inductive State where
  /-- A value. -/
  | needValue (stack : List Open)
  /-- The first value of an array, or its end. -/
  | firstItem (stack : List Open)
  /-- The first name of an object, or its end. -/
  | firstName (stack : List Open)
  /-- The name of a further field after these. -/
  | needName (stack : List Open) (fields : List (Name × Value))
  /-- The colon after a name. -/
  | needColon (stack : List Open) (fields : List (Name × Value)) (name : Name)
  /-- A comma, or the end of the array with these items. -/
  | afterItem (stack : List Open) (items : List Value)
  /-- A comma, or the end of the object with these fields. -/
  | afterField (stack : List Open) (fields : List (Name × Value))
  /-- Nothing more. -/
  | done (value : Value)
  deriving Inhabited

namespace State

/-- What is expected after a complete value. -/
def afterValue (value : Value) : List Open → State
  | [] => done value
  | .array items :: stack => afterItem stack (value :: items)
  | .object fields name :: stack => afterField stack ((name, value) :: fields)

/-- What is expected after the token that begins a value. -/
def beginValue? (stack : List Open) : Token → Option State
  | .leaf value => some (afterValue value stack)
  | .beginArray => some (firstItem stack)
  | .beginObject => some (firstName stack)
  | _ => none

/-- The name that a token is. -/
def name? : Token → Option Name
  | .leaf (.string text) => some (some text)
  | .leaf .unreadable => some none
  | _ => none

/-- What is expected after a token. -/
def next? : State → Token → Option State
  | needValue stack, token => beginValue? stack token
  | firstItem stack, .endArray => some (afterValue (.array []) stack)
  | firstItem stack, token => beginValue? (.array [] :: stack) token
  | firstName stack, .endObject => some (afterValue (.object []) stack)
  | firstName stack, token => (name? token).map (needColon stack [])
  | needName stack fields, token => (name? token).map (needColon stack fields)
  | needColon stack fields name, .colon => some (needValue (.object fields name :: stack))
  | afterItem stack items, .comma => some (needValue (.array items :: stack))
  | afterItem stack items, .endArray => some (afterValue (.array items.reverse) stack)
  | afterField stack fields, .comma => some (needName stack fields)
  | afterField stack fields, .endObject => some (afterValue (.ofFields fields.reverse) stack)
  | _, _ => none

/-- The value, when nothing more is expected. -/
def value? : State → Option Value
  | done value => some value
  | _ => none

end State

/-- The value that tokens make up. -/
def Value.ofTokens? (tokens : List Token) : Option Value :=
  tokens.foldlM State.next? (.needValue []) >>= State.value?

/-- The value that a text is written for. -/
def Value.ofText? (text : String) : Option Value :=
  tokens? text >>= Value.ofTokens?

end LinePatch.Json
