import LinePatch.Hunk
import LinePatch.Text.Lines

/-!
# Actions

A patch asks for one action on each file that it names: to update it hunk by hunk, to add it or
to delete it.

## Main definitions

* `Action`: what a patch asks for.
* `Action.describe`: a line of text about an action.
-/

namespace LinePatch

/-- What a patch asks for. -/
inductive Action where
  /-- The hunks are applied to the file one after the other. -/
  | update (path : String) (hunks : List Hunk)
  /-- A file with this content comes to be. -/
  | add (path : String) (content : String)
  /-- The file ceases to be. -/
  | delete (path : String)
  deriving DecidableEq, Repr, Inhabited

namespace Action

/-- The path of the file that an action is about. -/
def path : Action → String
  | update path _ | add path _ | delete path => path

/-- The word for what an action does. -/
def verb : Action → String
  | update .. => "update"
  | add .. => "add"
  | delete .. => "delete"

/-- An action with the amount of what it brings. -/
def describe (action : Action) : String :=
  action.verb ++ " " ++ action.path ++
    match action with
    | update _ hunks => " (" ++ toString hunks.length ++ " hunk(s))"
    | add _ content => " (" ++ toString (Text.pieces content).length ++ " line(s))"
    | delete _ => ""

end Action

end LinePatch
