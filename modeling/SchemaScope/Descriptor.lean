/-
**Descriptors.**

A descriptor is a JSON document that stands next to the sources of a schema.  It carries the time of
the last change, as a stamp in one of two sections.  The stamp can be read, and replaced by a new
one; the document is then written out anew, indented, with doubled backslashes made single, so that
the stamp stands in the file as the platform writes it.

Main definitions:

* `DescriptorError`, `RestampError` — what can go wrong;
* `Descriptor.parse`, `Descriptor.timestamp?`, `Descriptor.withTimestamp?` — the stamp of a
  document;
* `Descriptor.formatTimestamp` — the stamp of a time;
* `Descriptor.restamp` — the text of a descriptor with a new stamp;
* `Descriptor.readTimestamp`, `Descriptor.restampFile` — the same for a file.
-/

import SchemaScope.File.Store
import SchemaScope.Json.Printer
import SchemaScope.Json.Reader

set_option autoImplicit false

namespace SchemaScope

/-! ### Errors -/

/-- What can go wrong with reading a descriptor or a resource folder. -/
inductive DescriptorError where
  | file (path : Path) (fault : FileFault)
  | json (path : Path) (error : Json.Error)
  | missingTimestamp (path : Path)
  deriving DecidableEq, Repr, Inhabited

/-- The wording of an error. -/
def DescriptorError.message : DescriptorError → String
  | .file path fault => "Failed to read '" ++ path.text ++ "': " ++ fault.message
  | .json path error => "Invalid JSON in '" ++ path.text ++ "': " ++ error.message
  | .missingTimestamp path => "Descriptor '" ++ path.text ++ "' has no ModifiedOnUtc timestamp"

/-- What can go wrong with a new stamp for a descriptor file. -/
inductive RestampError where
  | unreadable (path : Path) (fault : FileFault)
  | unwritable (path : Path) (fault : FileFault)
  | invalid (error : DescriptorError)
  deriving DecidableEq, Repr, Inhabited

/-- The causes of an error that its wording is followed by. -/
def DescriptorError.causes : DescriptorError → List String
  | .file _ fault => [fault.message]
  | .json _ error => [error.message]
  | .missingTimestamp _ => []

/-- The wording of an error with its causes behind it. -/
def RestampError.message : RestampError → String
  | .unreadable path fault => "Failed to read descriptor " ++ path.text ++ ": " ++ fault.message
  | .unwritable path fault => "Failed to write descriptor " ++ path.text ++ ": " ++ fault.message
  | .invalid error => ": ".intercalate (error.message :: error.causes)

namespace Descriptor

/-! ### Documents -/

/-- The mark that may stand before a document. -/
def byteOrderMark : Char := '\uFEFF'

/-- A text without the marks before it. -/
def withoutMarks (text : List Char) : List Char := text.dropWhile (· == byteOrderMark)

/-- Whether a mark stands before a text. -/
def isMarked (text : List Char) : Bool := text.head? == some byteOrderMark

/-- The document of a text. -/
def parse (path : Path) (text : String) : Except DescriptorError Json :=
  (Json.parseChars (withoutMarks text.toList)).mapError (.json path)

/-- The sections that may carry a stamp, in the order in which they are looked through. -/
def timestampSections : List String := ["Descriptor", "SqlScript"]

/-- The member that holds the stamp. -/
def timestampField : String := "ModifiedOnUtc"

/-- The stamp in a section of a document. -/
def timestampIn? (document : Json) (name : String) : Option Json :=
  (document.member? name).bind (Json.member? timestampField)

/-- The section of a document that carries its stamp. -/
def timestampSection? (document : Json) : Option String :=
  timestampSections.find? fun name => (timestampIn? document name).isSome

/-- The stamp of a document. -/
def timestamp? (document : Json) : Option Json :=
  timestampSections.findSome? (timestampIn? document)

/-- The text of a stamp: a string as it is, anything else as it is written. -/
def timestampText : Json → String
  | .string text => text
  | other => other.compact

/-- A value with a member set, if it is an object. -/
def setMember (key : String) (value : Json) : Json → Json
  | .object members => .object (Members.put key value members)
  | other => other

/-- A document with the stamp of a section replaced. -/
def setTimestamp (name stamp : String) : Json → Json
  | .object members =>
      match Members.get? name members with
      | some fields =>
          .object (Members.put name (setMember timestampField (.string stamp) fields) members)
      | none => .object members
  | other => other

/-- A document with its stamp replaced, if it has one. -/
def withTimestamp? (stamp : String) (document : Json) : Option Json :=
  (timestampSection? document).map fun name => setTimestamp name stamp document

/-! ### Texts -/

/-- The stamp of a time in milliseconds, as the platform writes it. -/
def formatTimestamp (millis : Nat) : String := "\\/Date(" ++ toString millis ++ ")\\/"

/-- A text in which every pair of backslashes is a single one. -/
def undouble : List Char → List Char
  | [] => []
  | '\\' :: '\\' :: rest => '\\' :: undouble rest
  | c :: rest => c :: undouble rest

/-- The text that a document is written as. -/
def written (marked : Bool) (document : Json) : List Char :=
  let text := undouble (Json.prettyText 0 document)
  if marked then byteOrderMark :: text else text

/-- The stamp in the text of a descriptor. -/
def readStamp (path : Path) (text : String) : Except DescriptorError String := do
  let document ← parse path text
  match timestamp? document with
  | some stamp => .ok (timestampText stamp)
  | none => .error (.missingTimestamp path)

/-- The text of a descriptor with a new stamp. -/
def restamp (path : Path) (millis : Nat) (text : String) : Except DescriptorError String := do
  let document ← parse path text
  match withTimestamp? (formatTimestamp millis) document with
  | some document => .ok (String.ofList (written (isMarked text.toList) document))
  | none => .error (.missingTimestamp path)

/-! ### Files -/

/-- The stamp of a descriptor file, or nothing if there is no file. -/
def readTimestamp (files : FileStore) (path : Path) : Except DescriptorError (Option String) :=
  match files.readText path with
  | .ok text => (readStamp path text).map some
  | .error .notFound => .ok none
  | .error fault => .error (.file path fault)

/-- The files with a descriptor that has a new stamp. -/
def restampFile (files : FileStore) (path : Path) (millis : Nat) :
    Except RestampError FileStore := do
  let text ← (files.readText path).mapError (.unreadable path)
  let output ← (restamp path millis text).mapError .invalid
  (files.writeText path output).mapError (.unwritable path)

end Descriptor

end SchemaScope
