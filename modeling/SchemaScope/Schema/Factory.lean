/-
**The factory call and the schema object of a module.**

A schema module is a call `define(name, [dependencies], function (…) { … return { … }; })`.  The
object returned directly in the body of the callback is the schema object, and its members are the
sections of the schema.  Where a script holds several of these, the first in pre-order is meant.

Main definitions:

* `factoryArguments?` — the three arguments of a factory call;
* `FactoryCall`, `factoryCall?` — the first factory call of a script;
* `isSchemaObject`, `schemaObject?` — the object returned by the callback;
* `Located`, `located?` — a member of the schema object.
-/

import SchemaScope.Script.Shape
import SchemaScope.Script.Tree

set_option autoImplicit false

namespace SchemaScope.Schema

open Script

/-! ### The factory call -/

/-- The name of the module factory. -/
def factoryName : String := "define"

/-- The name, the dependencies and the callback of a factory call: the arguments of a call to
`define` that has exactly three, the last of them a function. -/
def factoryArguments? (call : Node) : Option (Node × Node × Node) := do
  let callee ← call.child? .callee
  let arguments ← call.child? .arguments
  if callee.kind = .identifier ∧ callee.text = factoryName then
    match arguments.significant with
    | [name, dependencies, callback] =>
        if callback.isFunctionLiteral then some (name, dependencies, callback) else none
    | _ => none
  else none

/-- Whether a node is a factory call. -/
def isFactoryCall (n : Node) : Bool := n.kind == .call && (factoryArguments? n).isSome

/-- A name and where it is written. -/
structure Named where
  name : String
  location : Location
  deriving DecidableEq, Repr, Inhabited

/-- What a factory call says: the module's name, the dependencies that are strings, and the
parameters of the callback that are plain names. -/
structure FactoryCall where
  moduleName : Option String
  dependencies : List Named
  parameters : List Named
  location : Location
  deriving DecidableEq, Repr, Inhabited

/-- The strings of a dependency array. -/
def dependenciesOf (n : Node) : List Named :=
  if n.kind = .array then
    n.significant.filterMap fun e => e.stringValue?.map fun name => ⟨name, e.location⟩
  else []

/-- The parameters of a callback that are plain names.  An arrow function with one bare parameter
has no parameter list. -/
def parametersOf (callback : Node) : List Named :=
  let candidates := match callback.child? .parameter with
    | some single => [single]
    | none => ((callback.child? .parameters).map Node.significant).getD []
  (candidates.filter (·.kind == .identifier)).map fun n => ⟨n.text, n.location⟩

/-- The first factory call of a script. -/
def factoryCall? (t : Tree) : Option FactoryCall := do
  let call ← t.findFirst? fun c => isFactoryCall c.node
  let (name, dependencies, callback) ← factoryArguments? call.node
  return ⟨name.stringValue?, dependenciesOf dependencies, parametersOf callback, call.node.location⟩

/-- Two lists side by side, the shorter one padded. -/
def padded {α β : Type} : List α → List β → List (Option α × Option β)
  | [], [] => []
  | a :: as, [] => (some a, none) :: padded as []
  | [], b :: bs => (none, some b) :: padded [] bs
  | a :: as, b :: bs => (some a, some b) :: padded as bs

/-- The dependencies beside the parameters. -/
def FactoryCall.bindings (c : FactoryCall) : List (Option Named × Option Named) :=
  padded c.dependencies c.parameters

/-! ### The schema object -/

/-- The cursors above, from the first that is not a pair of parentheses. -/
def outsideParentheses (above : List Cursor) : List Cursor :=
  above.dropWhile fun c => c.node.kind == .parenthesized

/-- Whether a cursor stands on the third of exactly three significant siblings. -/
def isThirdOfThree (c : Cursor) : Bool :=
  match c.frames with
  | [] => false
  | f :: _ =>
      (f.earlier.filter Node.isSignificant).length == 2 && f.later.all (!·.isSignificant)

/-- Whether a cursor stands on the child that its parent knows by a role: no sibling before it plays
that role. -/
def isChildIn (role : Role) (c : Cursor) : Bool :=
  match c.frames with
  | [] => false
  | f :: _ => c.node.role == some role && f.earlier.all (·.role != some role)

/-- Whether the cursors above a node lead through a `return` directly in the body of the callback of
a factory call.  The callback is known by its place: it is the third of the three arguments. -/
def isReturnedByFactory (above : List Cursor) : Bool :=
  match outsideParentheses above with
  | statement :: body :: callback :: arguments :: call :: _ =>
      statement.node.kind == .returnStatement && body.node.kind == .statementBlock &&
        callback.node.isFunctionLiteral && arguments.node.kind == .arguments &&
        (factoryArguments? call.node).isSome && isChildIn .arguments arguments &&
        isThirdOfThree callback
  | _ => false

/-- Whether a cursor stands on the object that the callback of a factory call returns. -/
def isSchemaObject (c : Cursor) : Bool :=
  c.node.kind == .object && isReturnedByFactory c.enclosing

/-- The first schema object of a script. -/
def schemaObject? (t : Tree) : Option Node := (t.findFirst? isSchemaObject).map (·.node)

/-! ### Members of the schema object -/

/-- A member of the schema object, with its value outside parentheses. -/
structure Located where
  pair : Node
  value : Node
  deriving Repr, Inhabited

/-- Where the member stands. -/
def Located.location (l : Located) : Location := l.pair.location

/-- Whether a cursor stands on the member of a schema object with the given key. -/
def isTopLevelMember (name : String) (c : Cursor) : Bool :=
  c.node.kind == .pair && c.node.key? == some name && c.parent?.any isSchemaObject

/-- The first member of a schema object with the given key. -/
def located? (t : Tree) (name : String) : Option Located := do
  let c ← t.findFirst? (isTopLevelMember name)
  let value ← c.node.child? .value
  return ⟨c.node, value.unwrapped⟩

/-- A member of the schema object whose value is an object literal. -/
def locatedObject? (t : Tree) (name : String) : Option Located :=
  (located? t name).filter fun l => l.value.kind == .object

end SchemaScope.Schema
