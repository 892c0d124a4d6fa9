import LinePatch.Text.Blank

/-!
# Paths

A path is a text whose names are separated by slashes. It is kept as it was given: joining paths
and going up from them removes no name, and only names that mean "stay here", the empty one and
the single dot, are passed over at the end of a path.

## Main definitions

* `Path.names`, `Path.isAbsolute`: the names of a path, and whether it starts at the top.
* `Path.join`: a path inside a directory.
* `Path.Component`, `Path.components`: the parts of a path that count.
* `Path.ancestors`: the directories on the way down to a path.
* `Path.isConfined`, `Path.within?`: paths that do not lead out of a directory.
-/

namespace LinePatch.Path

/-- The names of a path, some of which may be empty. -/
def names (path : String) : List String :=
  (path.toList.splitOn '/').map String.ofList

/-- A path of names. -/
def ofNames (names : List String) : String :=
  String.ofList (['/'].intercalate (names.map String.toList))

/-- Whether a path starts at the top of the tree. -/
def isAbsolute (path : String) : Bool :=
  path.toList.head? == some '/'

/-- A path that starts in a directory. -/
def join (directory path : String) : String :=
  if directory = "" ∨ directory.toList.getLast? = some '/' then directory ++ path
  else directory ++ "/" ++ path

/-- Whether a name means "stay here". -/
def staysHere (name : String) : Bool :=
  name == "" || name == "."

/-- What a path starts from, and the names that follow. A dot in front is kept as a start of its
own. -/
inductive Start where
  | top
  | here
  | nowhere
  deriving DecidableEq, Repr

/-- Splits the start from a path. -/
def split (path : String) : Start × List String :=
  match names path with
  | "" :: rest => if isAbsolute path then (.top, rest) else (.nowhere, [])
  | "." :: rest => (.here, rest)
  | names => (.nowhere, names)

/-- A part of a path that counts. -/
inductive Component where
  /-- The slash that a path from the top starts with. -/
  | top
  /-- The dot that a path starts with. -/
  | here
  /-- A name that goes up. -/
  | up
  /-- Any other name. -/
  | name (text : String)
  deriving DecidableEq, Repr

/-- The part that a path starts with. -/
def Start.component? : Start → Option Component
  | .top => some .top
  | .here => some .here
  | .nowhere => none

/-- The part of a path that a name is, unless it means "stay here". -/
def component? (name : String) : Option Component :=
  if staysHere name then none else some (if name = ".." then .up else .name name)

/-- The parts of a path. Of the names that mean "stay here" none counts but a dot that the path
starts with. -/
def components (path : String) : List Component :=
  let (start, names) := split path
  start.component?.toList ++ names.filterMap component?

/-- Whether a part of a path may lead out of the directory that the path is followed from. -/
def Component.leadsOut : Component → Bool
  | .top | .up => true
  | .here | .name _ => false

/-- The path with this start and these names. -/
def build : Start → List String → String
  | .top, names => "/" ++ ofNames names
  | .here, names => ofNames ("." :: names)
  | .nowhere, names => ofNames names

/-- Names without those at the front that mean "stay here". -/
def dropStays (reversed : List String) : List String :=
  reversed.dropWhile staysHere

/-- What is left of names as the last one is taken away again and again. All names are given with
the last one in front, and those that mean "stay here" do not count. -/
def shorter : List String → List (List String)
  | [] => []
  | name :: above =>
    if staysHere name then shorter above else dropStays above :: shorter above

/-- The directories on the way down to a path, the nearest one first. A path that starts nowhere
has no directory for its first name. -/
def ancestors (path : String) : List String :=
  let (start, names) := split path
  (shorter names.reverse).map (fun names => build start names.reverse) |>.filter (· ≠ "")

/-- Whether a path stays in the directory that it is followed from: it is not blank, it does not
start at the top, and no part of it leads out. -/
def isConfined (path : String) : Bool :=
  Text.trim path != "" && !isAbsolute path && !(components path).any Component.leadsOut

/-- The path inside a directory, unless it leads out of there. -/
def within? (directory path : String) : Option String :=
  if isConfined path then some (join directory path) else none

end LinePatch.Path
