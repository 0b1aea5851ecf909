/-
**JSON values.**

An object keeps its members in the order in which their keys first appeared, and holds each key
once: putting a key again replaces its value in place.

Main definitions:

* `Json` — a value;
* `Json.Members`, `Members.get?`, `Members.put` — the members of an object;
* `Json.member?` — a member of a value, if the value is an object;
* `Json.merge` — a value overridden by another.
-/

import SchemaScope.Number.Binary64

set_option autoImplicit false

namespace SchemaScope

/-- A JSON value.  Integers between `-2 ^ 63` and `2 ^ 64 - 1` are kept exactly, and every other
number is a double. -/
inductive Json where
  | null
  | bool (value : Bool)
  | integer (value : Int)
  | double (value : Binary64)
  | string (text : String)
  | array (elements : List Json)
  | object (members : List (String × Json))
  deriving Repr, Inhabited, BEq

/-- The members of an object, in order. -/
abbrev Members := List (String × Json)

namespace Members

/-- The value under a key. -/
def get? (key : String) : Members → Option Json
  | [] => none
  | (k, v) :: rest => if k = key then some v else get? key rest

/-- Sets the value under a key, in place if the key is there and at the end otherwise. -/
def put (key : String) (value : Json) : Members → Members
  | [] => [(key, value)]
  | (k, v) :: rest => if k = key then (k, value) :: rest else (k, v) :: put key value rest

/-- The keys in order. -/
def keys (members : Members) : List String := members.map Prod.fst

@[simp] theorem get?_nil (key : String) : get? key [] = none := rfl

@[simp] theorem get?_put_self (key : String) (value : Json) (members : Members) :
    get? key (put key value members) = some value := by
  induction members with
  | nil => simp [put, get?]
  | cons m rest ih =>
      obtain ⟨k, v⟩ := m
      by_cases h : k = key <;> simp [put, get?, h, ih]

theorem get?_put_of_ne {key other : String} (h : other ≠ key) (value : Json) (members : Members) :
    get? other (put key value members) = get? other members := by
  induction members with
  | nil => simp [put, get?, Ne.symm h]
  | cons m rest ih =>
      obtain ⟨k, v⟩ := m
      by_cases hk : k = key
      · subst hk
        simp [put, get?, Ne.symm h]
      · simp [put, get?, hk, ih]

/-- Members from a list in which keys may repeat: a repeated key keeps its first place and its last
value. -/
def ofList (entries : List (String × Json)) : Members :=
  entries.foldl (fun members (k, v) => put k v members) []

end Members

namespace Json

/-- The value under a key, if the value is an object that has it. -/
def member? (key : String) : Json → Option Json
  | .object members => Members.get? key members
  | _ => none

/-- The text of a string. -/
def text? : Json → Option String
  | .string text => some text
  | _ => none

/-- Whether the value is `null`. -/
def isNull : Json → Bool
  | .null => true
  | _ => false

mutual

/-- The value `base` overridden by another: `null` overrides nothing, an object overrides an object
member by member, and anything else takes the place of the base. -/
def merge (base : Json) : Json → Json
  | .null => base
  | .object overrides =>
      match base with
      | .object members => .object (mergeMembers members overrides)
      | _ => .object overrides
  | .bool value => .bool value
  | .integer value => .integer value
  | .double value => .double value
  | .string text => .string text
  | .array elements => .array elements

/-- Members overridden one after the other.  A key that the base lacks is taken over as it is,
unless its value is `null`. -/
def mergeMembers (members : Members) : List (String × Json) → Members
  | [] => members
  | (key, value) :: rest =>
      match members.get? key with
      | some existing => mergeMembers (members.put key (merge existing value)) rest
      | none => mergeMembers (if value.isNull then members else members.put key value) rest

end

end Json

end SchemaScope
