import LinePatch.Text.Lines

/-!
# Lines of a patch document

A line of a document is told by its first characters. Three stars open a mark that stands outside
every section, two at-signs open a hunk, and a space, a plus or a minus marks a line of a hunk.

## Main definitions

* `Document.Line`: the kinds of lines, with the text that follows the mark.
* `Document.Line.ofText`, `Document.Line.text`: telling the kind of a line, and writing it.

## Main results

* `Document.Line.text_ofText`: no part of a line is lost when its kind is told.
-/

namespace LinePatch.Document

/-- The beginning of the line that opens a document. -/
def beginMark : String := "*** Begin Patch"

/-- The line that closes a document. -/
def endMark : String := "*** End Patch"

/-- What precedes the path of a file to update. -/
def updateMark : String := "*** Update File: "

/-- What precedes the path of a file to add. -/
def addMark : String := "*** Add File: "

/-- What precedes the path of a file to delete. -/
def deleteMark : String := "*** Delete File: "

/-- The beginning of every line that ends a section. -/
def sectionMark : String := "***"

/-- The beginning of the line that opens a hunk. -/
def hunkMark : String := "@@"

/-- A line of a document after the opening one. -/
inductive Line where
  /-- The line that closes the document. -/
  | endMark
  /-- The head of a section that updates a file. -/
  | update (path : String)
  /-- The head of a section that adds a file. -/
  | add (path : String)
  /-- A line that deletes a file. -/
  | delete (path : String)
  /-- Any other line that begins with three stars, and what follows them. -/
  | stars (rest : String)
  /-- A line that opens a hunk, and what follows the two at-signs. -/
  | hunk (rest : String)
  /-- A line without characters. -/
  | blank
  /-- A line after a space. -/
  | context (text : String)
  /-- A line after a plus. -/
  | added (text : String)
  /-- A line after a minus. -/
  | removed (text : String)
  /-- A line without a mark. -/
  | bare (text : String)
  deriving DecidableEq, Repr, Inhabited

namespace Line

/-- Tells the kind of a line that does not begin with stars or at-signs. -/
def ofPlain (text : String) : Line :=
  match text.toList with
  | [] => .blank
  | ' ' :: rest => .context (String.ofList rest)
  | '+' :: rest => .added (String.ofList rest)
  | '-' :: rest => .removed (String.ofList rest)
  | _ => .bare text

/-- Tells the kind of a line. -/
def ofText (text : String) : Line :=
  if text = Document.endMark then .endMark
  else if let some path := Text.after? updateMark text then .update path
  else if let some path := Text.after? addMark text then .add path
  else if let some path := Text.after? deleteMark text then .delete path
  else if let some rest := Text.after? sectionMark text then .stars rest
  else if let some rest := Text.after? hunkMark text then .hunk rest
  else ofPlain text

/-- A line as it is written. -/
def text : Line → String
  | endMark => Document.endMark
  | update path => updateMark ++ path
  | add path => addMark ++ path
  | delete path => deleteMark ++ path
  | stars rest => sectionMark ++ rest
  | hunk rest => hunkMark ++ rest
  | blank => ""
  | context text => " " ++ text
  | added text => "+" ++ text
  | removed text => "-" ++ text
  | bare text => text

/-- Whether a line continues the section that it stands in. -/
def isBody : Line → Bool
  | endMark | update _ | add _ | delete _ | stars _ => false
  | _ => true

@[simp] theorem text_ofPlain (text : String) : (ofPlain text).text = text := by
  rw [← String.toList_inj]
  unfold ofPlain
  split <;> rename_i h <;> simp [Line.text, h]

/-- **Nothing is lost in telling the kind of a line.** -/
@[simp] theorem text_ofText (text : String) : (ofText text).text = text := by
  unfold ofText
  split
  · exact Eq.symm ‹_›
  · split
    · exact Text.append_of_after? ‹_›
    · split
      · exact Text.append_of_after? ‹_›
      · split
        · exact Text.append_of_after? ‹_›
        · split
          · exact Text.append_of_after? ‹_›
          · split
            · exact Text.append_of_after? ‹_›
            · exact text_ofPlain text

end Line

end LinePatch.Document
