import LinePatch.Document.Line
import LinePatch.Text.Blank

/-!
# Patches inside replies

An assistant writes a patch into a reply, among prose and behind fences. A patch begins at the
first line that begins like the opening line of a document, and reaches to the next line that
closes a document. Here a line is what line feeds separate: where the patch ends, the carriage
return of its last line is left out with it.

## Main definitions

* `Reply.looksLikePatch`: whether a text has both marks of a document.
* `Reply.extract?`: the document in a reply.
* `Reply.target?`: the first path that a document updates, for naming it.
-/

namespace LinePatch.Reply

open Document

/-- Whether a line opens a document. -/
def isBegin (line : String) : Bool :=
  (Text.after? beginMark line).isSome

/-- Whether a line closes a document. -/
def isEnd (line : String) : Bool :=
  line == endMark || line == endMark ++ "\r"

/-- What follows the first place where the characters `mark` stand. -/
def afterFirst? (mark : List Char) : List Char → Option (List Char)
  | [] => mark.isPrefixOf? []
  | c :: cs =>
    match mark.isPrefixOf? (c :: cs) with
    | some rest => some rest
    | none => afterFirst? mark cs

/-- Whether some line of a text opens a document and the closing mark stands anywhere in it. -/
def looksLikePatch (text : String) : Bool :=
  (Text.pieces text).any isBegin && (afterFirst? endMark.toList text.toList).isSome

/-- Lines up to the one that closes a document, or all of them. -/
def upToEnd : List String → List String
  | [] => []
  | line :: rest => if isEnd line then [endMark] else line :: upToEnd rest

/-- The document in a reply, without what stands around it. -/
def extract? (text : String) : Option String :=
  match (Text.pieces text).dropWhile (!isBegin ·) with
  | [] => none
  | lines => some (Text.unlines (upToEnd lines))

/-- Whether a character ends the path that a mark is followed by. -/
def endsPath (c : Char) : Bool :=
  c == '\r' || c == '\n'

/-- The path after the first mark of an update that is followed by one, without the blanks around
it. -/
def targetIn? : List Char → Option String
  | [] => none
  | c :: cs =>
    match (updateMark.toList.isPrefixOf? (c :: cs)).map (·.takeWhile (!endsPath ·)) with
    | some (d :: path) => some (Text.trim (String.ofList (d :: path)))
    | _ => targetIn? cs

/-- The first path that a text asks to update. -/
def target? (text : String) : Option String :=
  targetIn? text.toList

end LinePatch.Reply
