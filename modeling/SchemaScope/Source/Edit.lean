/-
**Edits of a text.**

An edit replaces the bytes between two offsets by a text.  It fits a text if the offsets are in
order, lie within the text and stand between characters.

Main definitions:

* `TextEdit`, `TextEdit.edited?` — an edit, and the text after it;
* `InvalidEdit` — an edit that does not fit;
* `Position.behind`, `pointAt?` — the position of a byte offset;
* `EditSpan`, `TextEdit.span?` — what an edit does to offsets and positions.
-/

import SchemaScope.Source.Location
import SchemaScope.Text.Utf8

set_option autoImplicit false

namespace SchemaScope

/-- Replaces the bytes from `start` up to `stop` by a text. -/
structure TextEdit where
  start : Nat
  stop : Nat
  text : String
  deriving DecidableEq, Repr, Inhabited

/-- An edit that does not fit a text of the given size. -/
structure InvalidEdit where
  start : Nat
  stop : Nat
  size : Nat
  deriving DecidableEq, Repr, Inhabited

/-- The wording of the error. -/
def InvalidEdit.message (e : InvalidEdit) : String :=
  "Edit " ++ toString e.start ++ ".." ++ toString e.stop ++ " does not fit a document of " ++
    toString e.size ++ " bytes"

/-- The byte that ends a line. -/
def lineFeed : UInt8 := 10

/-- The position behind the first bytes of a text: every line feed opens a line, and the column
counts the bytes behind the last of them. -/
def Position.behind (before : List UInt8) : Position :=
  ⟨1 + before.count lineFeed, (before.reverse.takeWhile (· != lineFeed)).length⟩

/-- The position of a byte offset that lies within a text. -/
def pointAt? (text : List Char) (byte : Nat) : Option Position :=
  let bytes := Utf8.bytes text
  if byte ≤ bytes.length then some (.behind (bytes.take byte)) else none

namespace TextEdit

/-- The parts of a text before and after the replaced bytes. -/
def outside? (e : TextEdit) (text : List Char) : Option (List Char × List Char) :=
  if e.start ≤ e.stop then do
    let (before, _) ← Utf8.splitAt? e.start text
    let (_, after) ← Utf8.splitAt? e.stop text
    return (before, after)
  else none

/-- The text after an edit, if the edit fits. -/
def edited? (e : TextEdit) (text : List Char) : Option (List Char) :=
  (e.outside? text).map fun (before, after) => before ++ e.text.toList ++ after

end TextEdit

/-- What an edit does to offsets and positions: where it starts, where the replaced text ended, and
where the new text ends. -/
structure EditSpan where
  startByte : Nat
  oldStopByte : Nat
  newStopByte : Nat
  start : Position
  oldStop : Position
  newStop : Position
  deriving DecidableEq, Repr, Inhabited

/-- What an edit that fits does to offsets and positions. -/
def TextEdit.span? (e : TextEdit) (text : List Char) : Option EditSpan := do
  let edited ← e.edited? text
  let newStopByte := e.start + Utf8.size e.text.toList
  let start ← pointAt? text e.start
  let oldStop ← pointAt? text e.stop
  let newStop ← pointAt? edited newStopByte
  return ⟨e.start, e.stop, newStopByte, start, oldStop, newStop⟩

end SchemaScope
