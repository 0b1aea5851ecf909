/-
**Business rules.**

A business rule is an object with a unique identifier and a few numbers and names.  It is summed up
in a sentence: what a binding rule does to its field, or the comparison that a filtering rule makes.

Main definitions:

* `BusinessRule`, `BusinessRule.ofNode?` — the parts of a rule;
* `BusinessRule.describe` — the summary of a rule on an attribute;
* `Rule`, `RuleGroup`, `ruleGroups` — the rules of a section, by attribute.
-/

import SchemaScope.Script.Shape
import SchemaScope.Platform.Enumeration

set_option autoImplicit false

namespace SchemaScope.Schema

open Script Platform

/-- The parts of a business rule that its summary depends on. -/
structure BusinessRule where
  uid : String
  ruleType : Option Int
  property : Option Int
  valueType : Option Int
  baseAttributePatch : Option String
  /-- The value as it is written. -/
  value : Option String
  attributeName : Option String
  attributePath : Option String
  deriving DecidableEq, Repr, Inhabited

namespace BusinessRule

/-- The rule that an object literal writes, if it has a string as its identifier. -/
def ofNode? (n : Node) : Option BusinessRule := do
  let uid ← n.propertyString? "uId"
  if n.kind = .object then
    some
      { uid := uid
        ruleType := n.propertyInteger? "ruleType"
        property := n.propertyInteger? "property"
        valueType := n.propertyInteger? "type"
        baseAttributePatch := n.propertyString? "baseAttributePatch"
        value := (n.property? "value").map (·.text)
        attributeName := n.propertyString? "attribute"
        attributePath := n.propertyString? "attributePath" }
  else none

/-- What a binding rule does to its field. -/
def bindingSummary (property : Option String) : String :=
  match property with
  | some "VISIBLE" => "shows the field"
  | some "ENABLED" => "enables the field"
  | some "REQUIRED" => "makes the field required"
  | some "READONLY" => "makes the field read-only"
  | _ => unknown

/-- The right side of the comparison that a filtering rule makes. -/
def operand? (r : BusinessRule) : Option String :=
  match r.valueType.bind ruleValueType.nameOf? with
  | some "CONSTANT" => r.value
  | some "ATTRIBUTE" => do
      let attributeName ← r.attributeName
      match r.attributePath with
      | some path =>
          if path.isEmpty then some attributeName else some (attributeName ++ "." ++ path)
      | none => some attributeName
  | _ => none

/-- The comparison that a filtering rule makes. -/
def filterSummary (r : BusinessRule) (parent : String) : String :=
  match r.operand? with
  | some operand => parent ++ "." ++ r.baseAttributePatch.getD unknown ++ " === " ++ operand
  | none => unknown

/-- The summary of a rule that is declared on an attribute. -/
def describe (r : BusinessRule) (parent : String) : String :=
  match r.ruleType.bind Platform.ruleType.nameOf? with
  | some "BINDPARAMETER" => bindingSummary (r.property.bind ruleProperty.nameOf?)
  | some "FILTRATION" => r.filterSummary parent
  | _ => unknown

end BusinessRule

/-- A rule with its summary. -/
structure Rule where
  rule : BusinessRule
  description : String
  location : Location
  deriving DecidableEq, Repr, Inhabited

/-- The rules on one attribute. -/
structure RuleGroup where
  attributeName : String
  rules : List Rule
  location : Location
  deriving DecidableEq, Repr, Inhabited

/-- The rule that a member of a group writes. -/
def Rule.ofPair? (attributeName : String) (pair : Node) : Option Rule := do
  let value ← pair.child? .value
  let rule ← BusinessRule.ofNode? value.unwrapped
  return ⟨rule, rule.describe attributeName, pair.location⟩

/-- The group that a member of the section writes. -/
def RuleGroup.ofPair? (pair : Node) : Option RuleGroup := do
  let attributeName ← pair.key?
  let value ← pair.child? .value
  return ⟨attributeName, value.unwrapped.pairs.filterMap (Rule.ofPair? attributeName),
    pair.location⟩

/-- The groups of rules in an object literal. -/
def ruleGroups (object : Node) : List RuleGroup := object.pairs.filterMap RuleGroup.ofPair?

end SchemaScope.Schema
