import LinePatch.Tree.Basic

/-!
# Changing trees

Making directories, putting files in their places and removing them. A change concerns the last
name of a path, which is entered in the directory that the names before it lead to.

## Main definitions

* `Tree.Entry`, `Tree.entry`: the directory and the name that a change concerns.
* `Tree.makeDirectory`, `Tree.makeDirectories`: new directories.
* `Tree.placeFile`, `Tree.removeFile`: files that come and go.
-/

namespace LinePatch.Tree

/-- A name in a directory. -/
structure Entry where
  directory : Place
  name : String
  /-- Whether slashes after the name ask for a directory. -/
  asDirectory : Bool
  deriving DecidableEq, Repr

namespace Entry

/-- The place of a name. -/
def place (entry : Entry) : Place :=
  entry.directory ++ [entry.name]

/-- Whether the last name of a path is one that leads back rather than down. -/
def isWayBack (entry : Entry) : Bool :=
  entry.name == "." || entry.name == ".."

end Entry

/-- The entry that the last name of a path stands for. -/
def entry (tree : Tree) (path : String) : Except Fault Entry := do
  let (here, names) ← tree.start path
  match names.reverse.dropWhile (· == "") with
  | [] => .ok ⟨here, ".", true⟩
  | name :: above =>
    let directory ← tree.walk here above.reverse
    match tree.node? directory with
    | some .directory => .ok ⟨directory, name, above.length + 1 < names.length⟩
    | some (.file _) => .error .notDirectory
    | none => .error .missing

/-- Makes a directory where there is nothing. -/
def makeDirectory (tree : Tree) (path : String) : Except Fault Tree := do
  let entry ← tree.entry path
  if entry.isWayBack then .error .occupied
  else if maxName < entry.name.utf8ByteSize then .error .nameTooLong
  else if (tree.node? entry.place).isSome then .error .occupied
  else .ok (tree.put entry.place .directory)

/-- Makes a directory, and says that it failed unless there is one afterwards. -/
def ensureDirectory (tree : Tree) (path : String) : Tree × Option Fault :=
  match tree.makeDirectory path with
  | .ok tree => (tree, none)
  | .error fault => (tree, if tree.isDirectory path then none else some fault)

/-- Makes the directory at the first of these paths, of which each is inside the next one. The
outer ones are made only if the way to an inner one is missing, and what was made before a fault
stays. -/
def makeDirectories (tree : Tree) : List String → Tree × Option Fault
  | [] => (tree, none)
  | path :: outer =>
    match tree.makeDirectory path with
    | .error .missing =>
      match tree.makeDirectories outer with
      | (tree, none) => tree.ensureDirectory path
      | (tree, some fault) => (tree, some fault)
    | _ => tree.ensureDirectory path

/-- How a fault is told of a file that is put in its place. -/
def placeFault : Fault → Fault
  | .zeroInPath => .invalid
  | fault => fault

/-- Puts a file at a path, in place of the file that may be there. -/
def placeFile (tree : Tree) (path : String) (content : ByteArray) : Except Fault Tree := do
  let entry ← (tree.entry path).mapError placeFault
  if entry.isWayBack then .error .busy
  else if maxName < entry.name.utf8ByteSize then .error .nameTooLong
  else if entry.asDirectory then .error .notDirectory
  else
    match tree.node? entry.place with
    | some .directory => .error .isDirectory
    | _ => .ok (tree.put entry.place (.file content))

/-- Removes the file at a path. -/
def removeFile (tree : Tree) (path : String) : Except Fault Tree := do
  let entry ← tree.entry path
  if entry.isWayBack then .error .isDirectory
  else if maxName < entry.name.utf8ByteSize then .error .nameTooLong
  else
    match tree.node? entry.place with
    | some (.file _) =>
      if entry.asDirectory then .error .notDirectory else .ok (tree.erase entry.place)
    | some .directory => .error .isDirectory
    | none => .error .missing

end LinePatch.Tree
