/-
**Captions.**

The caption of a page element is written as a text, or it refers to a localizable string by the last
name of an access chain or of a binding.

Main definitions:

* `Caption`, `Caption.ofNode?` — a caption and how it is written;
* `CaptionLookup` — the texts of localizable strings;
* `Caption.tooltip?` — the text that a caption shows.
-/

import SchemaScope.Script.Shape

set_option autoImplicit false

namespace SchemaScope.Schema

open Script

/-- The text of a localizable string, if there is one under a key. -/
abbrev CaptionLookup := String → Option String

/-- A lookup in which every key is missing. -/
def CaptionLookup.none : CaptionLookup := fun _ => Option.none

/-- A caption: a text, or the key of a localizable string. -/
inductive Caption where
  | literal (text : String)
  | resource (key : String)
  deriving DecidableEq, Repr, Inhabited

/-- What follows the last dot of a text, or the whole text without a dot. -/
def lastSegment (text : String) : String :=
  String.ofList (text.toList.reverse.takeWhile (· != '.')).reverse

namespace Caption

/-- The caption that a node writes: a string, which is a key where `stringIsKey` is set, the last
name of an access chain, or the last segment of a binding. -/
def ofNode? (stringIsKey : Bool) (n : Node) : Option Caption :=
  match n.kind with
  | .string => n.stringValue?.map fun text => if stringIsKey then .resource text else .literal text
  | .member => (n.memberPath?.bind List.getLast?).map .resource
  | .object => do
      let binding ← n.propertyString? "bindTo"
      let key := lastSegment binding
      if key.isEmpty then none else some (.resource key)
  | _ => none

/-- The key of a localizable string. -/
def resourceKey? : Caption → Option String
  | .resource key => some key
  | .literal _ => none

/-- The text that a caption shows. -/
def tooltip? (lookup : CaptionLookup) : Caption → Option String
  | .literal text => some text
  | .resource key => lookup key

end Caption

end SchemaScope.Schema
