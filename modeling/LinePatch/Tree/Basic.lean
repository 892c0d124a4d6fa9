import LinePatch.Path
import LinePatch.Tree.Fault

/-!
# Trees of files

A tree of directories and files, and the way in which a path is followed through it. A path is
followed name by name, and each name is looked up in what the names before it have led to.

## Main definitions

* `Place`, `Node`, `Tree`: places in a tree, what stands there, and the tree.
* `Tree.find`: follows a path.
* `Tree.nodeAt?`, `Tree.isFile`, `Tree.isDirectory`, `Tree.readText`: what a path leads to.
-/

namespace LinePatch

/-- A place in a tree: the names on the way down from the top. -/
abbrev Place : Type := List String

/-- What stands at a place. -/
inductive Node where
  | directory
  | file (content : ByteArray)
  deriving Inhabited

instance : DecidableEq Node
  | .directory, .directory => isTrue rfl
  | .directory, .file _ | .file _, .directory => isFalse nofun
  | .file content, .file other =>
    match ByteArray.instDecidableEq content other with
    | isTrue h => isTrue (congrArg Node.file h)
    | isFalse h => isFalse fun heq => h (Node.file.inj heq)

/-- A tree, and the place in it that paths are followed from. -/
structure Tree where
  home : Place
  /-- The first entry for a place counts. -/
  nodes : List (Place × Node)
  deriving Inhabited

namespace Tree

/-- What stands at a place. At the top there is always a directory. -/
def node? (tree : Tree) (place : Place) : Option Node :=
  if place = [] then some .directory else tree.nodes.lookup place

/-- The tree with this at a place. -/
def put (tree : Tree) (place : Place) (node : Node) : Tree :=
  { tree with nodes := (place, node) :: tree.nodes.filter (·.1 ≠ place) }

/-- The tree with nothing at a place. -/
def erase (tree : Tree) (place : Place) : Tree :=
  { tree with nodes := tree.nodes.filter (·.1 ≠ place) }

/-- The greatest length of a name, in bytes. -/
def maxName : Nat := 255

/-- The greatest length of a path, in bytes. -/
def maxPath : Nat := 4095

/-- The place that a name leads to from a directory. The name that goes up stays at the top
there. -/
def step (tree : Tree) (here : Place) (name : String) : Except Fault Place :=
  match tree.node? here with
  | some .directory =>
    if Path.staysHere name then .ok here
    else if name = ".." then .ok here.dropLast
    else if maxName < name.utf8ByteSize then .error .nameTooLong
    else if (tree.node? (here ++ [name])).isSome then .ok (here ++ [name])
    else .error .missing
  | some (.file _) => .error .notDirectory
  | none => .error .missing

/-- The place that names lead to, one after the other. -/
def walk (tree : Tree) : Place → List String → Except Fault Place
  | here, [] => .ok here
  | here, name :: names => do tree.walk (← tree.step here name) names

/-- The place that a path starts from, and its names. -/
def start (tree : Tree) (path : String) : Except Fault (Place × List String) :=
  if path.toList.contains '\x00' then .error .zeroInPath
  else if path = "" then .error .missing
  else if maxPath < path.utf8ByteSize then .error .nameTooLong
  else .ok (if Path.isAbsolute path then [] else tree.home, Path.names path)

/-- The place that a path leads to. -/
def find (tree : Tree) (path : String) : Except Fault Place := do
  let (here, names) ← tree.start path
  tree.walk here names

/-- What a path leads to, if it leads anywhere. -/
def nodeAt? (tree : Tree) (path : String) : Option Node :=
  match tree.find path with
  | .ok place => tree.node? place
  | .error _ => none

def isFile (tree : Tree) (path : String) : Bool :=
  match tree.nodeAt? path with
  | some (.file _) => true
  | _ => false

def isDirectory (tree : Tree) (path : String) : Bool :=
  match tree.nodeAt? path with
  | some .directory => true
  | _ => false

/-- The text of bytes. -/
def decode (bytes : ByteArray) : Except Fault String :=
  match String.fromUTF8? bytes with
  | some text => .ok text
  | none => .error .notText

/-- The text of the file that a path leads to. -/
def readText (tree : Tree) (path : String) : Except Fault String := do
  match tree.node? (← tree.find path) with
  | some (.file content) => decode content
  | some .directory => .error .isDirectory
  | none => .error .missing

end Tree

end LinePatch
