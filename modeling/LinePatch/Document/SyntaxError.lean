import LinePatch.Document.Line

/-!
# Syntax errors

The ways in which a text fails to be a patch document, with the number of the offending line,
counted from one.

## Main definitions

* `Document.Offence`, `Document.SyntaxError`.
* `Document.Offence.message`, `Document.SyntaxError.message`: their wording.
-/

namespace LinePatch.Document

/-- What is wrong with a document. -/
inductive Offence where
  /-- The first line is not the one that opens a document. -/
  | noBeginMark
  /-- The section that updates a file holds no hunk. -/
  | noHunks (path : String)
  /-- A line of a section that adds a file is neither blank nor marked as added. -/
  | badContent (line : String)
  /-- A line outside every section means nothing. -/
  | strayLine (line : String)
  /-- The document has no end mark although one is required. -/
  | noEndMark
  deriving DecidableEq, Repr, Inhabited

/-- The wording of an offence. -/
def Offence.message : Offence → String
  | noBeginMark => "patch must start with '" ++ beginMark ++ "'"
  | noHunks path => "update section for '" ++ path ++ "' contains no hunks"
  | badContent line => "invalid line in add section: '" ++ line ++ "'"
  | strayLine line => "unrecognized line outside any section: '" ++ line ++ "'"
  | noEndMark => "patch must end with '" ++ endMark ++ "'"

/-- An offence and the number of the line that it is found on. -/
structure SyntaxError where
  lineNumber : Nat
  offence : Offence
  deriving DecidableEq, Repr, Inhabited

/-- The wording of a syntax error. -/
def SyntaxError.message (error : SyntaxError) : String :=
  "patch syntax error at line " ++ toString error.lineNumber ++ ": " ++ error.offence.message

end LinePatch.Document
