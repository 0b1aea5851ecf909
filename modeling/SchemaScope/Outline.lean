/-
**The outline of a schema.**

The outline is a tree that an editor shows and opens level by level: sections, groups, members,
inserted elements, regions.  Each node has a name and may have a tooltip and a place.  An item is
what is shown of a node; its identifier is a digest of the file, the name and the place.

Main definitions:

* `OutlineNode` — a node of the outline;
* `OutlineNode.children`, `OutlineNode.hasChildren` — what a node opens into;
* `OutlineNode.identity`, `OutlineItem` — what is shown of a node;
* `OutlineNode.listing` — the nodes of an outline in pre-order, up to a number.
-/

import SchemaScope.Schema.Section
import SchemaScope.Region
import SchemaScope.Digest.Md5

set_option autoImplicit false

namespace SchemaScope

open Schema

/-- A node of the outline. -/
inductive OutlineNode where
  | root (content : Section)
  | dependency (d : Dependency)
  | item (i : Item)
  | messageGroup (g : MessageGroup)
  | message (m : Message)
  | detail (d : Detail)
  | ruleGroup (g : RuleGroup)
  | rule (r : Rule)
  | layoutGroup (g : LayoutGroup)
  | layoutEntry (e : LayoutEntry)
  | insertion (i : Insertion)
  | region (r : Region)

namespace OutlineNode

/-- The name of a node. -/
def name : OutlineNode → String
  | .root s => s.content.title
  | .dependency d => d.name
  | .item i => i.name
  | .messageGroup g => g.direction.name
  | .message m => m.name
  | .detail d => d.name
  | .ruleGroup g => g.attributeName
  | .rule r => r.description
  | .layoutGroup g => g.operation.name
  | .layoutEntry e => e.name
  | .insertion i => i.entry.name
  | .region r => r.name

/-- The tooltip of a node. -/
def tooltip : OutlineNode → Option String
  | .dependency d => some d.parameter
  | .item i => i.tooltip
  | .message m => m.mode
  | .detail d => d.tooltip
  | .rule r => some r.rule.uid
  | .layoutEntry e => e.tooltip
  | .insertion i => i.entry.tooltip
  | .root _ | .messageGroup _ | .ruleGroup _ | .layoutGroup _ | .region _ => none

/-- Where a node stands.  Groups that only sort their members stand nowhere. -/
def location : OutlineNode → Option Location
  | .root s => some s.location
  | .dependency d => d.location
  | .item i => some i.location
  | .messageGroup _ => none
  | .message m => some m.location
  | .detail d => some d.location
  | .ruleGroup g => some g.location
  | .rule r => some r.location
  | .layoutGroup _ => none
  | .layoutEntry e => some e.location
  | .insertion i => some i.entry.location
  | .region r => some r.location

/-- What a section opens into. -/
def ofContent : Content → List OutlineNode
  | .dependencies items => items.map .dependency
  | .mixins items => items.map .item
  | .messages groups => groups.map .messageGroup
  | .attributes items => items.map .item
  | .details items => items.map .detail
  | .methods items => items.map .item
  | .businessRules groups => groups.map .ruleGroup
  | .layout groups => groups.map .layoutGroup

/-- Whether a section is shown as one that opens.  Messages always are. -/
def contentOpens : Content → Bool
  | .dependencies items => !items.isEmpty
  | .mixins items => !items.isEmpty
  | .messages _ => true
  | .attributes items => !items.isEmpty
  | .details items => !items.isEmpty
  | .methods items => !items.isEmpty
  | .businessRules groups => !groups.isEmpty
  | .layout groups => !groups.isEmpty

/-- What a group of changes opens into: inserted elements form a forest, others are listed. -/
def ofLayoutGroup (g : LayoutGroup) : List OutlineNode :=
  if g.operation = .insert then (insertions g.entries).map .insertion
  else g.entries.map .layoutEntry

/-- What a node opens into. -/
def children : OutlineNode → List OutlineNode
  | .root s => ofContent s.content
  | .messageGroup g => g.messages.map .message
  | .ruleGroup g => g.rules.map .rule
  | .layoutGroup g => ofLayoutGroup g
  | .insertion i => i.children.map .insertion
  | .region r => r.children.map .region
  | .dependency _ | .item _ | .message _ | .detail _ | .rule _ | .layoutEntry _ => []

/-- Whether a node is shown as one that opens. -/
def hasChildren : OutlineNode → Bool
  | .root s => contentOpens s.content
  | .messageGroup g => !g.messages.isEmpty
  | .ruleGroup g => !g.rules.isEmpty
  | .layoutGroup g => !g.entries.isEmpty
  | .insertion i => i.hasChildren
  | .region r => !r.children.isEmpty
  | .dependency _ | .item _ | .message _ | .detail _ | .rule _ | .layoutEntry _ => false

/-- Nodes in pre-order with their depths, up to the given number: a node, then what it opens into,
then what follows it. -/
def listing : Nat → List (Nat × OutlineNode) → List (Nat × OutlineNode)
  | 0, _ => []
  | _ + 1, [] => []
  | count + 1, (depth, n) :: rest =>
      (depth, n) :: listing count (n.children.map ((depth + 1, ·)) ++ rest)

/-- The outlines of sections in pre-order, up to the given number of nodes. -/
def outline (count : Nat) (sections : List Section) : List (Nat × OutlineNode) :=
  listing count (sections.map fun s => (0, .root s))

end OutlineNode

/-! ### Items -/

/-- The text that identifies a node of a file. -/
def identityText (file name : String) (line column : Nat) : String :=
  file ++ ":" ++ name ++ ":" ++ toString line ++ ":" ++ toString column

/-- The identifier of a node of a file. -/
def identifier (file name : String) (line column : Nat) : String :=
  Md5.hex (identityText file name line column)

/-- The text that identifies a node; a node without a place counts as being at zero. -/
def OutlineNode.identity (file : String) (n : OutlineNode) : String :=
  let start := (n.location.map Location.start).getD ⟨0, 0⟩
  identityText file n.name start.line start.column

/-- What is shown of a node. -/
structure OutlineItem where
  id : String
  name : String
  tooltip : Option String
  location : Option Location
  collapsible : Bool
  deriving DecidableEq, Repr, Inhabited

/-- What is shown of a node of a file. -/
def OutlineItem.ofNode (file : String) (n : OutlineNode) : OutlineItem :=
  ⟨Md5.hex (n.identity file), n.name, n.tooltip, n.location, n.hasChildren⟩

/-- What is shown of the nodes that a node of a file opens into. -/
def OutlineItem.childrenOf (file : String) (n : OutlineNode) : List OutlineItem :=
  n.children.map (OutlineItem.ofNode file)

end SchemaScope
