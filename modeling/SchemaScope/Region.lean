/-
**Regions between marker comments.**

A region is a named range of a script between a comment that opens it and a comment that closes it.
Regions nest: a closing comment closes the innermost region that is open.  A closing comment with
nothing open means nothing, and what is still open at the end is no region.

Main definitions:

* `RegionRule`, `RegionMatcher` — how opening and closing comments look;
* `Marker`, `RegionMatcher.classify` — what a comment says;
* `Region`, `Region.scan` — the regions of a list of comments;
* `RegionMatcher.regions` — the regions of a script.
-/

import SchemaScope.Script.Tree
import SchemaScope.Pattern.Reader

set_option autoImplicit false

namespace SchemaScope

open Script

/-- How the comments that open and close regions look, as text patterns. -/
structure RegionRule where
  opening : String
  closing : String
  deriving DecidableEq, Repr, Inhabited

/-- The rules whose patterns are both well written. -/
structure RegionMatcher where
  rules : List (Pattern × Pattern)
  deriving DecidableEq, Repr, Inhabited

/-- What a comment says. -/
inductive Marker where
  | opens (name : String)
  | closes
  deriving DecidableEq, Repr, Inhabited

namespace RegionMatcher

/-- The patterns of a rule. -/
def compile? (rule : RegionRule) : Option (Pattern × Pattern) := do
  let opening ← Pattern.parse? rule.opening
  let closing ← Pattern.parse? rule.closing
  return (opening, closing)

/-- The matcher of a list of rules; a rule that is not well written is left out. -/
def ofRules (rules : List RegionRule) : RegionMatcher := ⟨rules.filterMap compile?⟩

/-- Whether no rule is left. -/
def isEmpty (m : RegionMatcher) : Bool := m.rules.isEmpty

/-- The name of a region whose opening comment gives none. -/
def defaultName : String := "Region"

/-- The name that an opening comment gives. -/
def nameFrom (found : Pattern.Match) (comment : List Char) : String :=
  match (found.group? "name" comment).map Text.trimChars with
  | some (c :: cs) => String.ofList (c :: cs)
  | _ => defaultName

/-- What a comment says.  Opening comments of all rules come before closing ones. -/
def classify (m : RegionMatcher) (comment : List Char) : Option Marker :=
  match m.rules.findSome? fun (opening, _) => opening.find? comment with
  | some found => some (.opens (nameFrom found comment))
  | none => if m.rules.any fun (_, closing) => closing.isMatch comment then some .closes else none

end RegionMatcher

/-- A region and the regions directly inside it. -/
structure Region where
  name : String
  location : Location
  children : List Region
  deriving Repr, Inhabited

namespace Region

/-- The regions that are open, innermost first, and the outermost ones that are closed, in order. -/
structure Scan where
  opened : List Region
  closed : List Region
  deriving Repr, Inhabited

/-- Nothing is open and nothing is closed. -/
def Scan.start : Scan := ⟨[], []⟩

/-- What a comment with the given meaning does. -/
def Scan.step (s : Scan) (comment : Option Marker × Location) : Scan :=
  match comment with
  | (none, _) => s
  | (some (.opens name), location) => { s with opened := ⟨name, location, []⟩ :: s.opened }
  | (some .closes, location) =>
      match s.opened with
      | [] => s
      | region :: outer =>
          let region := { region with location := region.location.spanTo location }
          match outer with
          | [] => ⟨[], s.closed ++ [region]⟩
          | parent :: rest =>
              ⟨{ parent with children := parent.children ++ [region] } :: rest, s.closed⟩

/-- The regions of comments with given meanings, in source order. -/
def scan (comments : List (Option Marker × Location)) : List Region :=
  (comments.foldl Scan.step Scan.start).closed

mutual

/-- A region and all regions inside it, each with its depth, outer ones first. -/
def flatten (depth : Nat) : Region → List (Nat × Region)
  | ⟨name, location, children⟩ =>
      (depth, ⟨name, location, children⟩) :: flattenAll (depth + 1) children

/-- Several regions and all regions inside them, each with its depth. -/
def flattenAll (depth : Nat) : List Region → List (Nat × Region)
  | [] => []
  | r :: rest => r.flatten depth ++ flattenAll depth rest

end

end Region

/-- The regions of a script. -/
def RegionMatcher.regions (m : RegionMatcher) (t : Tree) : List Region :=
  Region.scan (t.comments.map fun c => (m.classify (Text.trimChars c.text.toList), c.location))

end SchemaScope
