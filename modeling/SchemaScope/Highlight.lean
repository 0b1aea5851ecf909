/-
**Annotations of constants.**

Numbers in a schema stand for members of enumerations, and business rules are hard to read.  An
annotation puts the name of the member after the number, and the summary of a rule before it.  Every
member of every object literal is looked at in pre-order, and every rule is asked in turn.

Main definitions:

* `ValueRule`, `HighlightRule` — what is annotated;
* `Highlight` — an annotation at a place;
* `HighlightRule.highlight?` — the annotation of one member by one rule;
* `annotate` — all annotations of a script;
* `visible` — the annotations near the lines in view.
-/

import SchemaScope.Schema.BusinessRule
import SchemaScope.Script.Tree

set_option autoImplicit false

namespace SchemaScope

open Script Platform Schema

/-- Numbers under `key` stand for the given members.  If `ancestor` is given, the number counts only
somewhere inside a member of that name. -/
structure ValueRule where
  key : String
  members : List (String × Int)
  ancestor : Option String
  deriving DecidableEq, Repr, Inhabited

/-- A rule of the annotator. -/
inductive HighlightRule where
  | value (rule : ValueRule)
  | businessRule
  deriving DecidableEq, Repr, Inhabited

/-- An annotation at a place of no width. -/
structure Highlight where
  name : String
  location : Location
  deriving DecidableEq, Repr, Inhabited

/-- Whether a cursor stands inside a member of the given name. -/
def isInside (name : String) (c : Cursor) : Bool :=
  c.enclosing.any fun above => above.node.key? == some name

namespace ValueRule

/-- The rule for an enumeration. -/
def ofEnumeration (key : String) (e : Enumeration) (ancestor : Option String) : ValueRule :=
  ⟨key, e.members, ancestor⟩

/-- The name of the first member with the value of a number. -/
def memberName (r : ValueRule) (number : Binary64) : String :=
  let member := number.integer?.bind fun n => r.members.find? fun m => m.2 == n
  (member.map Prod.fst).getD unknown

/-- The annotation of a member: the name of its number, right after it. -/
def highlight? (r : ValueRule) (c : Cursor) : Option Highlight := do
  let value ← c.node.child? .value
  let number ← value.numberValue?
  if c.node.key? = some r.key ∧ r.ancestor.all (isInside · c) then
    some ⟨r.memberName number, value.location.endPoint⟩
  else none

end ValueRule

/-- The attribute that a business rule is declared on: the name of the member whose value is the
object that holds the rule. -/
def owningAttribute (c : Cursor) : String :=
  (((c.parent?.bind Cursor.parent?).bind fun above => above.node.key?)).getD unknown

/-- The annotation of a business rule: its summary, right before it. -/
def businessRuleHighlight? (c : Cursor) : Option Highlight := do
  let value ← c.node.child? .value
  let object := value.unwrapped
  let rule ← BusinessRule.ofNode? object
  if isInside "businessRules" c then
    some ⟨rule.describe (owningAttribute c), object.location.startPoint⟩
  else none

/-- The annotation of a member by a rule. -/
def HighlightRule.highlight? : HighlightRule → Cursor → Option Highlight
  | .value rule, c => rule.highlight? c
  | .businessRule, c => businessRuleHighlight? c

/-- The rules that are used unless others are given. -/
def defaultHighlightRules : List HighlightRule :=
  [.value (.ofEnumeration "itemType" viewItemType (some "diff")),
    .value (.ofEnumeration "dataValueType" dataValueType none),
    .value (.ofEnumeration "comparisonType" comparisonType none),
    .value (.ofEnumeration "contentType" contentType (some "diff")),
    .value (.ofEnumeration "type" viewModelColumnType (some "attributes")),
    .value (.ofEnumeration "logical" logicalOperatorType (some "businessRules")),
    .businessRule]

/-- The annotations of a member. -/
def annotateMember (rules : List HighlightRule) (c : Cursor) : List Highlight :=
  if c.node.kind = .pair then rules.filterMap (·.highlight? c) else []

/-- The annotations of a script. -/
def annotate (rules : List HighlightRule) (t : Tree) : List Highlight :=
  t.walk.flatMap (annotateMember rules)

/-- How many lines around those in view are annotated too. -/
def margin : Nat := 10

/-- The annotations within the margin around the lines in view. -/
def visible (highlights : List Highlight) (first last : Nat) : List Highlight :=
  highlights.filter fun h =>
    first - margin ≤ h.location.start.line && h.location.start.line ≤ last + margin

end SchemaScope
