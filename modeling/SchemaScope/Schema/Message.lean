/-
**Messages.**

A page declares the messages that it sends and receives.  They are listed by direction: those it
receives, those it sends, and those that go both ways.

Main definitions:

* `Direction`, `Direction.ofName?` — the directions and their names;
* `Message`, `Message.ofPair?` — a message and how it is declared;
* `MessageGroup`, `messageGroups` — the messages by direction.
-/

import SchemaScope.Script.Shape

set_option autoImplicit false

namespace SchemaScope.Schema

open Script

/-- The direction of a message. -/
inductive Direction where
  | subscribe | publish | bidirectional
  deriving DecidableEq, Repr, Inhabited

namespace Direction

/-- All directions, in the order of their groups. -/
def all : List Direction := [.subscribe, .publish, .bidirectional]

/-- The name of a direction. -/
def name : Direction → String
  | .subscribe => "SUBSCRIBE"
  | .publish => "PUBLISH"
  | .bidirectional => "BIDIRECTIONAL"

/-- The direction with the given name, in any case of ASCII letters. -/
def ofName? (text : String) : Option Direction :=
  let upper := String.ofList (text.toList.map Char.toUpper)
  all.find? fun d => d.name == upper

@[simp] theorem mem_all (d : Direction) : d ∈ all := by cases d <;> simp [all]

end Direction

/-- A message. -/
structure Message where
  name : String
  direction : Direction
  mode : Option String
  location : Location
  deriving DecidableEq, Repr, Inhabited

/-- A string under a key, or the last name of an access chain of at least two names. -/
def symbol? (config : Node) (key : String) : Option String := do
  let value ← config.property? key
  match value.stringValue? with
  | some text => some text
  | none => (value.memberPath?.filter fun path => 1 < path.length).bind List.getLast?

/-- The message that a member of the section declares, if its direction is known. -/
def Message.ofPair? (pair : Node) : Option Message := do
  let value ← pair.child? .value
  let config := value.unwrapped
  let direction ← (symbol? config "direction").bind Direction.ofName?
  let name ← pair.key?
  return ⟨name, direction, symbol? config "mode", pair.location⟩

/-- The messages of one direction. -/
structure MessageGroup where
  direction : Direction
  messages : List Message
  deriving DecidableEq, Repr, Inhabited

/-- The messages declared in an object literal. -/
def messagesOf (object : Node) : List Message := object.pairs.filterMap Message.ofPair?

/-- Messages by direction.  There is a group for every direction, even if it is empty. -/
def groupMessages (messages : List Message) : List MessageGroup :=
  Direction.all.map fun d => ⟨d, messages.filter fun m => m.direction == d⟩

end SchemaScope.Schema
