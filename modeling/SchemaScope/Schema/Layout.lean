/-
**Changes of the layout.**

A page describes its layout by changes to the layout that it extends: elements are removed, merged,
inserted or moved.  Changes are listed by operation.  Inserted elements name the element that they
are put into, and so form a forest: an entry stands below every other entry that its parent's name
names.  Nothing keeps these names from running in a circle, so the forest is followed only to a
fixed depth.

Main definitions:

* `Operation`, `Operation.ofName?` — the operations and their names;
* `LayoutEntry`, `LayoutEntry.ofNode?` — one change;
* `LayoutGroup`, `groupEntries` — the changes by operation;
* `forestRoots`, `forestChildren` — the roots of the forest, and what stands below an entry;
* `Insertion`, `Insertion.children` — an entry of the forest at a depth.
-/

import SchemaScope.Schema.Caption

set_option autoImplicit false

namespace SchemaScope.Schema

open Script

/-- What a change does to an element. -/
inductive Operation where
  | remove | merge | insert | move
  deriving DecidableEq, Repr, Inhabited

namespace Operation

/-- All operations, in the order of their groups. -/
def all : List Operation := [.remove, .merge, .insert, .move]

/-- The name of an operation. -/
def name : Operation → String
  | .remove => "remove"
  | .merge => "merge"
  | .insert => "insert"
  | .move => "move"

/-- The operation with the given name. -/
def ofName? (text : String) : Option Operation := all.find? fun o => o.name == text

@[simp] theorem mem_all (o : Operation) : o ∈ all := by cases o <;> simp [all]

end Operation

/-- One change of the layout. -/
structure LayoutEntry where
  operation : Operation
  name : String
  parentName : Option String
  propertyName : Option String
  captionKey : Option String
  tooltip : Option String
  location : Location
  deriving DecidableEq, Repr, Inhabited

namespace LayoutEntry

/-- The caption of an element, under either of two keys of its values. -/
def caption? (n : Node) : Option Caption := do
  let values ← n.property? "values"
  let value ← (values.property? "caption").or (values.property? "captionValue")
  Caption.ofNode? false value

/-- The change that an object literal describes, if its operation is known and it has a name. -/
def ofNode? (lookup : CaptionLookup) (n : Node) : Option LayoutEntry := do
  let operation ← (n.propertyString? "operation").bind Operation.ofName?
  let name ← n.propertyString? "name"
  let caption := caption? n
  return ⟨operation, name, n.propertyString? "parentName", n.propertyString? "propertyName",
    caption.bind Caption.resourceKey?, caption.bind (Caption.tooltip? lookup), n.location⟩

end LayoutEntry

/-- The changes of one operation. -/
structure LayoutGroup where
  operation : Operation
  entries : List LayoutEntry
  deriving DecidableEq, Repr, Inhabited

/-- The changes described in an array. -/
def entriesOf (lookup : CaptionLookup) (array : Node) : List LayoutEntry :=
  (array.significant.map Node.unwrapped).filterMap (LayoutEntry.ofNode? lookup)

/-- Changes by operation, operations that do not occur left out. -/
def groupEntries (entries : List LayoutEntry) : List LayoutGroup :=
  (Operation.all.map fun o => LayoutGroup.mk o (entries.filter fun e => e.operation == o)).filter
    fun g => !g.entries.isEmpty

/-! ### The forest of inserted elements -/

/-- How deep the forest is followed. -/
def maxDepth : Nat := 64

/-- Whether some other entry has the given name. -/
def namedElsewhere (entries : List LayoutEntry) (index : Nat) (name : String) : Bool :=
  entries.zipIdx.any fun (e, i) => i != index && e.name == name

/-- The entries that stand below no other entry. -/
def forestRoots (entries : List LayoutEntry) : List (Fin entries.length) :=
  (List.finRange entries.length).filter fun i =>
    match entries[i].parentName with
    | none => true
    | some parent => !namedElsewhere entries i parent

/-- The other entries that name the given one as their parent. -/
def forestChildren (entries : List LayoutEntry) (index : Fin entries.length) :
    List (Fin entries.length) :=
  let name := entries[index].name
  (List.finRange entries.length).filter fun i =>
    i != index && entries[i].parentName == some name

/-- An entry of the forest at a depth. -/
structure Insertion where
  entries : List LayoutEntry
  index : Fin entries.length
  depth : Nat
  deriving Repr

namespace Insertion

/-- The change that is inserted. -/
def entry (n : Insertion) : LayoutEntry := n.entries[n.index]

/-- What stands below the entry, unless the forest has been followed far enough. -/
def children (n : Insertion) : List Insertion :=
  if n.depth < maxDepth then
    (forestChildren n.entries n.index).map fun i => ⟨n.entries, i, n.depth + 1⟩
  else []

/-- Whether anything stands below the entry. -/
def hasChildren (n : Insertion) : Bool :=
  n.depth < maxDepth && !(forestChildren n.entries n.index).isEmpty

end Insertion

/-- The roots of the forest of some entries. -/
def insertions (entries : List LayoutEntry) : List Insertion :=
  (forestRoots entries).map fun i => ⟨entries, i, 0⟩

end SchemaScope.Schema
