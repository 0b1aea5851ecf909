/-
**Locations in JSON.**

Main definitions:

* `Position.encode`, `Location.encode` — positions and locations as JSON;
* `Position.decode`, `Location.decode` — and back.
-/

import SchemaScope.Json.Decode
import SchemaScope.Source.Location

set_option autoImplicit false

namespace SchemaScope

/-- A count of 32 bits. -/
def Decode.count (value : Json) : Except DecodeError Nat :=
  (Decode.integerIn Decode.unsigned32 value).map Int.toNat

namespace Position

/-- A position as JSON. -/
def encode (p : Position) : Json :=
  .object [("line", .integer p.line), ("column", .integer p.column)]

/-- The fields of a position that have been read. -/
structure Draft where
  line : Option Nat := none
  column : Option Nat := none

/-- How a position is read. -/
def format : RecordFormat Draft Position where
  name := "Position"
  fields := ["line", "column"]
  tooMany := fewerElements
  start := {}
  read d key value :=
    if key = "line" then (Decode.count value).map fun n => { d with line := some n }
    else if key = "column" then (Decode.count value).map fun n => { d with column := some n }
    else .ok d
  finish d := do
    let line ← required "line" d.line
    let column ← required "column" d.column
    return ⟨line, column⟩

/-- A position from JSON. -/
def decode : Json → Except DecodeError Position := format.decode

end Position

namespace Location

/-- A location as JSON. -/
def encode (l : Location) : Json :=
  .object [("start", l.start.encode), ("end", l.stop.encode), ("start_byte", .integer l.startByte),
    ("end_byte", .integer l.stopByte)]

/-- The fields of a location that have been read. -/
structure Draft where
  start : Option Position := none
  stop : Option Position := none
  startByte : Option Nat := none
  stopByte : Option Nat := none

/-- How a location is read. -/
def format : RecordFormat Draft Location where
  name := "SourceLocation"
  fields := ["start", "end", "start_byte", "end_byte"]
  tooMany := fewerElements
  start := {}
  read d key value :=
    if key = "start" then (Position.decode value).map fun p => { d with start := some p }
    else if key = "end" then (Position.decode value).map fun p => { d with stop := some p }
    else if key = "start_byte" then (Decode.count value).map fun n => { d with startByte := some n }
    else if key = "end_byte" then (Decode.count value).map fun n => { d with stopByte := some n }
    else .ok d
  finish d := do
    let start ← required "start" d.start
    let stop ← required "end" d.stop
    let startByte ← required "start_byte" d.startByte
    let stopByte ← required "end_byte" d.stopByte
    return ⟨start, stop, startByte, stopByte⟩

/-- A location from JSON. -/
def decode : Json → Except DecodeError Location := format.decode

end Location

end SchemaScope
