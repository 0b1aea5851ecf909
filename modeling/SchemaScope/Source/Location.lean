/-
**Positions and ranges in a source text.**

A position is a line, counted from one, and a column, counted from zero in UTF-8 bytes.  Only the
line feed ends a line, so a carriage return is an ordinary byte.  A location is a range of a
source: two positions together with the two byte offsets.

Main definitions:

* `Position.advance`, `Position.advanceText` — the position reached by reading on;
* `Location.startPoint`, `Location.endPoint` — the two zero-width ends of a location;
* `Location.spanTo` — the range from the start of one location to the end of another.
-/

set_option autoImplicit false

namespace SchemaScope

/-- A point of a source: a line counted from one and a byte column counted from zero. -/
structure Position where
  line : Nat
  column : Nat
  deriving DecidableEq, Repr, Inhabited

namespace Position

/-- The first position of every source. -/
def origin : Position := ⟨1, 0⟩

/-- The position after one more character: a line feed opens the next line, and any other
character moves the column on by its number of UTF-8 bytes. -/
def advance (p : Position) (c : Char) : Position :=
  if c = '\n' then ⟨p.line + 1, 0⟩ else ⟨p.line, p.column + c.utf8Size⟩

/-- The position after reading a whole text. -/
def advanceText (p : Position) (text : List Char) : Position := text.foldl advance p

@[simp] theorem advanceText_nil (p : Position) : p.advanceText [] = p := rfl

@[simp] theorem advanceText_cons (p : Position) (c : Char) (text : List Char) :
    p.advanceText (c :: text) = (p.advance c).advanceText text := rfl

/-- Positions are ordered by line and then by column. -/
def before (p q : Position) : Bool :=
  p.line < q.line || (p.line == q.line && p.column < q.column)

end Position

/-- A range of a source, by positions and by byte offsets. -/
structure Location where
  start : Position
  stop : Position
  startByte : Nat
  stopByte : Nat
  deriving DecidableEq, Repr, Inhabited

namespace Location

/-- The zero-width location at the end. -/
def endPoint (l : Location) : Location := ⟨l.stop, l.stop, l.stopByte, l.stopByte⟩

/-- The zero-width location at the start. -/
def startPoint (l : Location) : Location := ⟨l.start, l.start, l.startByte, l.startByte⟩

/-- The range from the start of `l` to the end of `m`. -/
def spanTo (l m : Location) : Location := ⟨l.start, m.stop, l.startByte, m.stopByte⟩

/-- A location whose two ends are the same point. -/
def isPoint (l : Location) : Bool := l.start == l.stop && l.startByte == l.stopByte

@[simp] theorem isPoint_endPoint (l : Location) : l.endPoint.isPoint = true := by
  simp [isPoint, endPoint]

@[simp] theorem isPoint_startPoint (l : Location) : l.startPoint.isPoint = true := by
  simp [isPoint, startPoint]

@[simp] theorem spanTo_self (l : Location) : l.spanTo l = l := rfl

end Location

/-- A place in a source while it is being read: the position, the byte offset and the number of
characters before it. -/
structure Mark where
  position : Position
  byte : Nat
  count : Nat
  deriving DecidableEq, Repr, Inhabited

namespace Mark

/-- The mark at the very start of a source. -/
def origin : Mark := ⟨Position.origin, 0, 0⟩

/-- The mark after one more character. -/
def advance (m : Mark) (c : Char) : Mark :=
  ⟨m.position.advance c, m.byte + c.utf8Size, m.count + 1⟩

/-- The mark after reading a whole text. -/
def advanceText (m : Mark) (text : List Char) : Mark := text.foldl advance m

@[simp] theorem advanceText_nil (m : Mark) : m.advanceText [] = m := rfl

@[simp] theorem advanceText_cons (m : Mark) (c : Char) (text : List Char) :
    m.advanceText (c :: text) = (m.advance c).advanceText text := rfl

/-- The location between two marks. -/
def upTo (m n : Mark) : Location := ⟨m.position, n.position, m.byte, n.byte⟩

end Mark

end SchemaScope
