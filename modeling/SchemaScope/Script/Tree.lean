/-
**The tree of a script.**

A script that follows the grammar throughout has a tree; any other text has none.  The tree holds
the text it was read from, and its comments stand at the places where they occur.

Main definitions:

* `Tree`, `Tree.parse?` — a script's text with its root node;
* `Tree.cursor`, `Tree.walk` — the cursor on the root, and the walk through the whole tree;
* `Tree.findFirst?`, `Tree.ofKind`, `Tree.named`, `Tree.comments` — searches in pre-order.
-/

import SchemaScope.Script.Statement
import SchemaScope.Script.Cursor

set_option autoImplicit false

namespace SchemaScope.Script

/-! ### The grammar -/

/-- The production of every category, given the grammar for its parts. -/
def production (g : Grammar) : Goal → Parse Node
  | .statement => Statement.statement g
  | .block => Statement.block g
  | .expression allowIn => Expression.sequence g allowIn
  | .assignment allowIn => Expression.assignment g allowIn
  | .binary allowIn level => Expression.binary g allowIn level
  | .unary => Expression.unary g
  | .chained => Expression.chained g true
  | .constructed => Expression.chained g false
  | .parameters => Expression.parameters g
  | .propertyName => Expression.propertyName g
  | .classTail => Expression.classTail g

/-- The grammar for texts whose categories nest at most `depth` deep. -/
def grammarWithin : Nat → Grammar
  | 0, _ => failure
  | depth + 1, goal => production (grammarWithin depth) goal

/-- How deep the categories can nest in a text: each passes through at most eight others before it
reads a character. -/
def nestingBound (length : Nat) : Nat := 8 * length + 16

/-! ### Comments in their places -/

namespace Node

mutual

/-- Puts comments, given in source order, into a node at the places where they stand. -/
def weave (comments : List Node) : Node → Node
  | ⟨kind, role, location, text, children⟩ =>
      ⟨kind, role, location, text, weaveAll comments children⟩

/-- Puts comments, given in source order, between and into sibling nodes. -/
def weaveAll (comments : List Node) : List Node → List Node
  | [] => comments
  | n :: rest =>
      let before := comments.takeWhile (·.location.startByte < n.location.startByte)
      let others := comments.dropWhile (·.location.startByte < n.location.startByte)
      let inside := others.takeWhile (·.location.startByte < n.location.stopByte)
      let after := others.dropWhile (·.location.startByte < n.location.stopByte)
      before ++ (if inside.isEmpty then n else weave inside n) :: weaveAll after rest

end

/-- A default for a shorthand member makes sense only in a pattern. -/
def isLiteralWithDefault (n : Node) : Bool :=
  n.kind == .object && n.children.any (·.kind == .shorthandDefault)

end Node

/-! ### Trees -/

/-- A script's text and its root node. -/
structure Tree where
  source : String
  root : Node
  deriving Repr, Inhabited

namespace Tree

/-- The root node of a script, if the whole text follows the grammar. -/
def readProgram (source : List Char) : Option Node := do
  let (node, reader) ← (Statement.program (grammarWithin (nestingBound source.length))).run
    (Reader.start source)
  if node.preorder.any Node.isLiteralWithDefault then none
  else some (node.weave reader.comments.reverse)

/-- The tree of a script, if the whole text follows the grammar. -/
def parse? (source : String) : Option Tree :=
  (readProgram source.toList).map fun root => ⟨source, root⟩

@[simp] theorem parse?_source {source : String} {t : Tree} (h : parse? source = some t) :
    t.source = source := by
  unfold parse? at h
  obtain ⟨root, _, rfl⟩ := Option.map_eq_some_iff.1 h
  rfl

/-- The cursor on the root. -/
def cursor (t : Tree) : Cursor := Cursor.root t.root

/-- All cursors of the tree in pre-order. -/
def walk (t : Tree) : List Cursor := t.cursor.walk

/-- The first cursor in pre-order that is accepted. -/
def findFirst? (t : Tree) (p : Cursor → Bool) : Option Cursor := t.cursor.findFirst? p

/-- All nodes of a kind, in pre-order. -/
def ofKind (t : Tree) (kind : Kind) : List Node :=
  (t.cursor.findAll fun c => c.node.kind == kind).map (·.node)

/-- All nodes whose kind has the given name, in pre-order. -/
def named (t : Tree) (name : String) : List Node :=
  (t.cursor.findAll fun c => c.node.kind.name == name).map (·.node)

/-- All comments, in source order. -/
def comments (t : Tree) : List Node := t.ofKind .comment

end Tree

end SchemaScope.Script
