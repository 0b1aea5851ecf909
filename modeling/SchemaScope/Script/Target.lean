/-
**Literals read again as targets.**

Until an equals sign or an arrow is met, a destructuring target looks like an object or array
literal.  The grammar reads it as a literal, and this module turns the literal into the target it
turned out to be.  A literal that cannot be a target has none.

Main definitions:

* `Node.toTarget?` — the target a node stands for;
* `Node.toParameters?` — the parameter list that a list in parentheses stands for;
* `Node.isAssignable`, `Node.isUpdatable` — what may stand left of an assignment.
-/

import SchemaScope.Script.Node

set_option autoImplicit false

namespace SchemaScope.Script.Node

mutual

/-- The target that a node stands for: names and members stand for themselves, literals become
patterns, an assignment becomes a target with a default. -/
def toTarget? : Node → Option Node
  | ⟨kind, role, location, text, children⟩ =>
      match kind with
      | .identifier | .undefined | .member | .subscript | .parenthesized
      | .objectPattern | .arrayPattern | .shorthandDefault | .token _ =>
          some ⟨kind, role, location, text, children⟩
      | .shorthandProperty => some ⟨.shorthandPattern, role, location, text, children⟩
      | .object => (toTargets? children).map fun cs => ⟨.objectPattern, role, location, text, cs⟩
      | .array => (toTargets? children).map fun cs => ⟨.arrayPattern, role, location, text, cs⟩
      | .spread => (toTargets? children).map fun cs => ⟨.restPattern, role, location, text, cs⟩
      | .pair => (valueTargets? children).map fun cs => ⟨.pairPattern, role, location, text, cs⟩
      | .assignment => some ⟨.defaultPattern, role, location, text, children⟩
      | _ => none

/-- The targets that several nodes stand for. -/
def toTargets? : List Node → Option (List Node)
  | [] => some []
  | n :: rest => do return (← toTarget? n) :: (← toTargets? rest)

/-- The children of a member with its value read as a target. -/
def valueTargets? : List Node → Option (List Node)
  | [] => some []
  | n :: rest => do
      let rest' ← valueTargets? rest
      if n.role == some .value then return (← toTarget? n) :: rest' else return n :: rest'

end

/-- The parameter list that a list in parentheses stands for. -/
def toParameters? (n : Node) : Option Node := do
  let children ← toTargets? n.children
  return { n with kind := .formalParameters, children := children }

/-- What may stand left of an equals sign, patterns aside. -/
def isAssignable (n : Node) : Bool :=
  match n.kind with
  | .identifier | .undefined | .member | .subscript | .parenthesized | .object | .array => true
  | _ => false

/-- What may stand left of an operator that updates. -/
def isUpdatable (n : Node) : Bool :=
  match n.kind with
  | .identifier | .member | .subscript | .parenthesized => true
  | _ => false

end SchemaScope.Script.Node
