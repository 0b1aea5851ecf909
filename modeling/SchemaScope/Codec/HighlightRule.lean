/-
**Rules of the annotator in JSON.**

A rule carries its kind in a member of its own.  A value rule has the rest of its fields beside it;
the rule for business rules has none.  A rule can also be written as an array that starts with the
kind.

Main definitions:

* `ValueRule.encode`, `HighlightRule.encode` — rules as JSON;
* `ValueRule.format`, `HighlightRule.decode`, `HighlightRule.decodeAll` — and back.
-/

import SchemaScope.Highlight
import SchemaScope.Json.Decode

set_option autoImplicit false

namespace SchemaScope

/-! ### Members -/

/-- A member of an enumeration as JSON. -/
def encodeMember (m : String × Int) : Json :=
  .object [("name", .string m.1), ("value", .integer m.2)]

/-- The fields of a member of an enumeration that have been read. -/
structure MemberDraft where
  name : Option String := none
  value : Option Int := none

/-- How a member of an enumeration is read. -/
def memberFormat : RecordFormat MemberDraft (String × Int) where
  name := "EnumMember"
  fields := ["name", "value"]
  tooMany := elementCount 2
  start := {}
  read d key value :=
    if key = "name" then (Decode.text value).map fun t => { d with name := some t }
    else if key = "value" then
      (Decode.integerIn Decode.signed64 value).map fun n => { d with value := some n }
    else .ok d
  finish d := do
    let name ← required "name" d.name
    let value ← required "value" d.value
    return (name, value)

/-! ### Value rules -/

namespace ValueRule

/-- The members of a value rule as JSON.  A missing ancestor is left out. -/
def encodeMembers (r : ValueRule) : List (String × Json) :=
  [("attribute", .string r.key), ("members", .array (r.members.map encodeMember))] ++
    match r.ancestor with
    | some name => [("ancestor", .string name)]
    | none => []

/-- The fields of a value rule that have been read. -/
structure Draft where
  key : Option String := none
  members : Option (List (String × Int)) := none
  ancestor : Option String := none

/-- How a value rule is read.  Without an ancestor it has none. -/
def format : RecordFormat Draft ValueRule where
  name := "ValueRule"
  fields := ["attribute", "members", "ancestor"]
  tooMany := elementCount 3
  start := {}
  read d key value :=
    if key = "attribute" then (Decode.text value).map fun t => { d with key := some t }
    else if key = "members" then
      (Decode.list memberFormat.decode value).map fun ms => { d with members := some ms }
    else if key = "ancestor" then
      (Decode.optional Decode.text value).map fun t => { d with ancestor := t }
    else .ok d
  finish d := do
    let key ← required "attribute" d.key
    let members ← required "members" d.members
    return ⟨key, members, d.ancestor⟩

end ValueRule

/-! ### Rules -/

/-- The kinds of rules. -/
inductive RuleKind where
  | value
  | businessRule
  deriving DecidableEq, Repr, Inhabited

namespace RuleKind

/-- The name of a kind. -/
def name : RuleKind → String
  | .value => "value"
  | .businessRule => "businessRule"

/-- The member that carries the kind. -/
def field : String := "kind"

/-- A kind from JSON. -/
def decode : Json → Except DecodeError RuleKind
  | .string text =>
      if text = name .value then .ok .value
      else if text = name .businessRule then .ok .businessRule
      else .error (.unknownVariant text [name .value, name .businessRule])
  | other => Decode.mismatch other "variant identifier"

end RuleKind

namespace HighlightRule

/-- A rule as JSON. -/
def encode : HighlightRule → Json
  | .value rule => .object ((RuleKind.field, .string (RuleKind.name .value)) :: rule.encodeMembers)
  | .businessRule => .object [(RuleKind.field, .string (RuleKind.name .businessRule))]

/-- A rule of a given kind from the members beside the kind. -/
def ofMembers (members : List (String × Json)) : RuleKind → Except DecodeError HighlightRule
  | .value => (ValueRule.format.ofMembers members).map .value
  | .businessRule => .ok .businessRule

/-- A rule of a given kind from the elements behind the kind. -/
def ofElements (elements : List Json) : RuleKind → Except DecodeError HighlightRule
  | .value => (ValueRule.format.ofElements elements).map .value
  | .businessRule =>
      if elements.isEmpty then .ok .businessRule
      else .error (.invalidLength elements.length (elementCount 0))

/-- A rule from JSON. -/
def decode : Json → Except DecodeError HighlightRule
  | .object members => do
      match Members.get? RuleKind.field members with
      | some kind =>
          ofMembers (members.filter fun m => m.1 ≠ RuleKind.field) (← RuleKind.decode kind)
      | none => .error (.missingField RuleKind.field)
  | .array (kind :: elements) => do ofElements elements (← RuleKind.decode kind)
  | .array [] => .error (.missingField RuleKind.field)
  | other => Decode.mismatch other "internally tagged enum HighlightRule"

/-- Rules from JSON. -/
def decodeAll : Json → Except DecodeError (List HighlightRule) := Decode.list decode

/-- Rules as JSON. -/
def encodeAll (rules : List HighlightRule) : Json := .array (rules.map encode)

end HighlightRule

end SchemaScope
