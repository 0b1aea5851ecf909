/-
**The sections of a schema.**

A schema has up to eight sections, always in the same order: the dependencies of the module, and
seven members of the schema object.  A section that is absent, or is not written as it should be, is
left out.

Main definitions:

* `Dependency`, `Item`, `Detail` — what the plain sections list;
* `Content`, `Section` — a section and where it stands;
* `Section.ofTree` — the sections of a script.
-/

import SchemaScope.Schema.Factory
import SchemaScope.Schema.Message
import SchemaScope.Schema.BusinessRule
import SchemaScope.Schema.Layout

set_option autoImplicit false

namespace SchemaScope.Schema

open Script Platform

/-- A module that the schema depends on, and the parameter that stands for it. -/
structure Dependency where
  name : String
  parameter : String
  location : Option Location
  deriving DecidableEq, Repr, Inhabited

/-- A named member of a section. -/
structure Item where
  name : String
  tooltip : Option String
  location : Location
  deriving DecidableEq, Repr, Inhabited

/-- A detail: a page inside the page. -/
structure Detail where
  name : String
  schemaName : Option String
  captionKey : Option String
  tooltip : Option String
  location : Location
  deriving DecidableEq, Repr, Inhabited

/-- What a section lists. -/
inductive Content where
  | dependencies (items : List Dependency)
  | mixins (items : List Item)
  | messages (groups : List MessageGroup)
  | attributes (items : List Item)
  | details (items : List Detail)
  | methods (items : List Item)
  | businessRules (groups : List RuleGroup)
  | layout (groups : List LayoutGroup)
  deriving DecidableEq, Repr, Inhabited

/-- A section of a schema. -/
structure Section where
  content : Content
  location : Location
  deriving DecidableEq, Repr, Inhabited

/-- The title of a section. -/
def Content.title : Content → String
  | .dependencies _ => "Dependencies"
  | .mixins _ => "Mixins"
  | .messages _ => "Messages"
  | .attributes _ => "Attributes"
  | .details _ => "Details"
  | .methods _ => "Methods"
  | .businessRules _ => "Business rules"
  | .layout _ => "Diff"

/-! ### The members of the plain sections -/

/-- A dependency beside a parameter, either of which may be missing. -/
def Dependency.ofBinding (binding : Option Named × Option Named) : Dependency :=
  let (dependency, parameter) := binding
  ⟨(dependency.map Named.name).getD unknown, (parameter.map Named.name).getD unknown,
    (dependency.or parameter).map Named.location⟩

/-- The items of an object literal, with the tooltip read off each value. -/
def itemsOf (tooltip : Node → Option String) (object : Node) : List Item :=
  object.pairs.filterMap fun pair => do
    let value ← pair.child? .value
    let name ← pair.key?
    return ⟨name, tooltip value, pair.location⟩

/-- The type of an attribute: by number, or by the last name of an access chain. -/
def attributeType? (config : Node) : Option String := do
  let value ← config.property? "dataValueType"
  match value.numberValue? with
  | some number => number.integer?.bind dataValueType.nameOf?
  | none => value.memberPath?.bind List.getLast?

/-- The parameter list of a function, as it is written. -/
def parameterText? (value : Node) : Option String :=
  if value.isFunctionLiteral then (value.child? .parameters).map (·.text) else none

/-- The detail that a member of the section declares. -/
def Detail.ofPair? (lookup : CaptionLookup) (pair : Node) : Option Detail := do
  let value ← pair.child? .value
  let config := value.unwrapped
  let name ← pair.key?
  let schemaName := config.propertyString? "schemaName"
  let caption := (config.property? "captionName").bind (Caption.ofNode? true)
  let tooltip := (caption.bind (Caption.tooltip? lookup)).or schemaName
  return ⟨name, schemaName, caption.bind Caption.resourceKey?, tooltip, pair.location⟩

/-! ### The sections of a script -/

namespace Section

/-- The dependencies of the module. -/
def dependencies? (t : Tree) : Option Section :=
  (factoryCall? t).map fun call =>
    ⟨.dependencies (call.bindings.map Dependency.ofBinding), call.location⟩

/-- A member of the schema object that is an object literal, as a section. -/
def ofMember? (t : Tree) (key : String) (content : Node → Content) : Option Section :=
  (locatedObject? t key).map fun l => ⟨content l.value, l.location⟩

/-- The mixins; the tooltip is the class that is mixed in. -/
def mixins? (t : Tree) : Option Section :=
  ofMember? t "mixins" fun n => .mixins (itemsOf Node.stringValue? n)

/-- The messages by direction. -/
def messages? (t : Tree) : Option Section :=
  ofMember? t "messages" fun n => .messages (groupMessages (messagesOf n))

/-- The attributes; the tooltip is the type. -/
def attributes? (t : Tree) : Option Section :=
  ofMember? t "attributes" fun n => .attributes (itemsOf attributeType? n)

/-- The details; the tooltip is the caption. -/
def details? (lookup : CaptionLookup) (t : Tree) : Option Section :=
  ofMember? t "details" fun n => .details (n.pairs.filterMap (Detail.ofPair? lookup))

/-- The methods; the tooltip is the parameter list. -/
def methods? (t : Tree) : Option Section :=
  ofMember? t "methods" fun n => .methods (itemsOf parameterText? n)

/-- The business rules by attribute. -/
def businessRules? (t : Tree) : Option Section :=
  ofMember? t "businessRules" fun n => .businessRules (ruleGroups n)

/-- The changes of the layout, which are written in an array. -/
def layout? (lookup : CaptionLookup) (t : Tree) : Option Section :=
  ((located? t "diff").filter fun l => l.value.kind == .array).map fun l =>
    ⟨.layout (groupEntries (entriesOf lookup l.value)), l.location⟩

/-- The sections of a script, in their order. -/
def ofTree (lookup : CaptionLookup) (t : Tree) : List Section :=
  [dependencies? t, mixins? t, messages? t, attributes? t, details? lookup t, methods? t,
    businessRules? t, layout? lookup t].filterMap id

end Section

end SchemaScope.Schema
