import LinePatch.Command.Execute

/-!
# Snapshots

The command looks at few places of the disk: those on the way to the patch, to the settings and
to the files that the patch names. A tree of these places is all that it needs, and what it does
to that tree is what has to be done to the disk.

## Main definitions

* `Request.sources`, `Request.targets`: the paths that a request leads to.
* `Tree.route`: the places on the way to a path.
* `Tree.difference`: the work that turns one tree into another.
-/

namespace LinePatch

/-- The paths of the patch and of the settings. -/
def Request.sources : Request → List String
  | .apply input choices .. | .check input choices .. =>
    input.file.toList ++ choices.file.toList
  | .detect input => input.file.toList

/-- Whether a request takes the patch from the standard input. -/
def Request.readsStandardInput : Request → Bool
  | .apply input .. | .check input .. | .detect input =>
    input.file.isNone && input.source.isNone

/-- The paths of the files that the patch names, as far as it can be read from this tree. -/
def Request.targets (request : Request) (standardInput : ByteArray) (tree : Tree) :
    List String :=
  match request with
  | .apply input choices root extract .. =>
    match (requestedActions input choices extract standardInput tree).result with
    | .ok (_, actions) => actions.filterMap fun action => Path.within? root action.path
    | .error _ => []
  | _ => []

/-- The places that names lead through from a place, if all of them are there. -/
def Tree.placesOn (here : Place) : List String → List Place
  | [] => []
  | name :: names =>
    let next :=
      if Path.staysHere name then here else if name = ".." then here.dropLast else here ++ [name]
    next :: placesOn next names

/-- The places on the way to a path, with the ones on the way to where it starts. -/
def Tree.route (home : Place) (path : String) : List Place :=
  let start := if Path.isAbsolute path then [] else home
  placesOn [] start ++ placesOn start (Path.names path)

/-- A piece of work on the disk. -/
inductive Tree.Work where
  | makeDirectory (place : Place)
  | writeFile (place : Place) (content : ByteArray)
  | removeFile (place : Place)

/-- The work that turns one tree into another, outer directories first. -/
def Tree.difference (before after : Tree) : List Tree.Work :=
  let changed := after.nodes.filter fun entry => before.node? entry.1 != some entry.2
  let made := changed.filterMap fun entry =>
    match entry.2 with
    | .directory => some entry.1
    | .file _ => none
  let written := changed.filterMap fun entry =>
    match entry.2 with
    | .directory => none
    | .file content => some (Work.writeFile entry.1 content)
  let removed := before.nodes.filterMap fun entry =>
    if (after.node? entry.1).isNone then some (Work.removeFile entry.1) else none
  (made.mergeSort fun a b => decide (a.length ≤ b.length)).map .makeDirectory ++ written ++ removed

end LinePatch
