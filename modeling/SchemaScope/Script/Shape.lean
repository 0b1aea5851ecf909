/-
**The shapes that schemas are written in.**

A schema uses few of the forms that a script offers: object literals with fixed keys, string and
number literals, and names joined by dots.  This module reads these shapes off a node.  A node of
another shape has no value here.

Main definitions:

* `Node.unwrapped` — an expression without the parentheses around it;
* `Node.stringValue?`, `Node.numberValue?`, `Node.signedValue?` — the values of literals;
* `Node.key?`, `Node.pairs`, `Node.property?` — the members of an object literal;
* `Node.propertyString?`, `Node.propertyNumber?` — the values of members;
* `Node.memberPath?` — names joined by dots.
-/

import SchemaScope.Script.Node
import SchemaScope.Number.Literal

set_option autoImplicit false

namespace SchemaScope.Script.Node

/-! ### Parentheses -/

/-- A named child that is no comment. -/
def isSignificant (n : Node) : Bool := n.kind.isNamed && n.kind != .comment

mutual

/-- The expression inside all parentheses around it. -/
def unwrapped : Node → Node
  | ⟨kind, role, location, text, children⟩ =>
      if kind = .parenthesized then
        (unwrappedFirst children).getD ⟨kind, role, location, text, children⟩
      else ⟨kind, role, location, text, children⟩

/-- The first significant node of a list, inside all parentheses around it. -/
def unwrappedFirst : List Node → Option Node
  | [] => none
  | n :: rest => if n.isSignificant then some n.unwrapped else unwrappedFirst rest

end

/-! ### Literals -/

/-- The text between the quotes of a string literal, escapes left as they are written. -/
def stringValue? (n : Node) : Option String :=
  if n.kind = .string ∧ 2 ≤ n.text.length then
    some (String.ofList (n.text.toList.drop 1).dropLast)
  else none

/-- The value of a number literal. -/
def numberValue? (n : Node) : Option Binary64 :=
  if n.kind = .number then Literal.value? n.text else none

/-- The value of a number literal with or without a sign before it. -/
def signedValue? (n : Node) : Option Binary64 :=
  if n.kind = .unary then do
    let operator ← n.child? .operator
    let argument ← n.child? .argument
    let value ← argument.numberValue?
    match operator.text with
    | "-" => some value.neg
    | "+" => some value
    | _ => none
  else n.numberValue?

/-! ### Object literals -/

/-- The key of a member, if it is a word or a string. -/
def key? (n : Node) : Option String :=
  if n.kind = .pair then do
    let key ← n.child? .key
    match key.kind with
    | .propertyIdentifier | .identifier => some key.text
    | .string => key.stringValue?
    | _ => none
  else none

/-- The members of an object literal that have a key and a value. -/
def pairs (n : Node) : List Node :=
  if n.kind = .object then
    n.significant.filter fun c => c.key?.isSome && (c.child? .value).isSome
  else []

/-- The value of the first member with the given key, without parentheses. -/
def property? (n : Node) (key : String) : Option Node := do
  let pair ← n.pairs.find? fun c => c.key? == some key
  let value ← pair.child? .value
  return value.unwrapped

/-- The string under a key. -/
def propertyString? (n : Node) (key : String) : Option String :=
  (n.property? key).bind stringValue?

/-- The number under a key, with or without a sign. -/
def propertyNumber? (n : Node) (key : String) : Option Binary64 :=
  (n.property? key).bind signedValue?

/-- The integer under a key. -/
def propertyInteger? (n : Node) (key : String) : Option Int :=
  (n.propertyNumber? key).bind Binary64.integer?

/-! ### Names joined by dots -/

mutual

/-- The names of an access chain, from left to right. -/
def memberPath? : Node → Option (List String)
  | ⟨kind, _, _, text, children⟩ =>
      match kind with
      | .identifier | .propertyIdentifier | .this => some [text]
      | .member => do
          let property ← children.find? fun c => c.role == some .property
          let path ← objectPath? children
          if property.kind = .propertyIdentifier then some (path ++ [property.text]) else none
      | _ => none

/-- The names of the chain that the last access is made on. -/
def objectPath? : List Node → Option (List String)
  | [] => none
  | n :: rest => if n.role == some .object then n.memberPath? else objectPath? rest

end

end SchemaScope.Script.Node
