/-!
# Faults of the tree

What keeps a path from being followed, read or changed.

## Main definitions

* `Tree.Fault`, `Tree.Fault.message`: the faults and their wording.
-/

namespace LinePatch

/-- Why something at a path fails. -/
inductive Tree.Fault where
  /-- A name on the way, or at the end, is not there. -/
  | missing
  | busy
  /-- There is something already. -/
  | occupied
  /-- A name on the way is not a directory, or the last one is asked to be one and is not. -/
  | notDirectory
  /-- A directory stands where a file is meant. -/
  | isDirectory
  /-- The path is none at all. -/
  | invalid
  /-- A name, or the whole path, is longer than the tree allows. -/
  | nameTooLong
  /-- The path holds the character with the number zero. -/
  | zeroInPath
  /-- The bytes of a file are not those of a text. -/
  | notText
  deriving DecidableEq, Repr, Inhabited

namespace Tree.Fault

/-- The wording of a fault that has a number. -/
def numbered (text : String) (number : Nat) : String :=
  text ++ " (os error " ++ toString number ++ ")"

/-- The wording of a fault. -/
def message : Fault → String
  | missing => numbered "No such file or directory" 2
  | busy => numbered "Device or resource busy" 16
  | occupied => numbered "File exists" 17
  | notDirectory => numbered "Not a directory" 20
  | isDirectory => numbered "Is a directory" 21
  | invalid => numbered "Invalid argument" 22
  | nameTooLong => numbered "File name too long" 36
  | zeroInPath => "file name contained an unexpected NUL byte"
  | notText => "stream did not contain valid UTF-8"

end Tree.Fault

end LinePatch
