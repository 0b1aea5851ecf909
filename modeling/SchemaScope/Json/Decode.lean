/-
**Values out of JSON.**

A JSON value is read as a value of a given kind, or an error says what was found and what was
expected.  Records can be written as objects, in any order and with members that mean nothing, or as
arrays in the order of their fields.  Members and elements are read in the order in which they are
written, and the first fault counts; a field that is missing is a fault only after that.

Main definitions:

* `DecodeError`, `DecodeError.message` — what is wrong with a value;
* `Decode.boolean`, `Decode.text`, `Decode.integerIn`, `Decode.list`, `Decode.optional` — plain
  values;
* `RecordFormat`, `RecordFormat.decode` — records.
-/

import SchemaScope.Json.Printer
import SchemaScope.Text.Quoted

set_option autoImplicit false

namespace SchemaScope

/-! ### Errors -/

/-- What was found in the place of an expected value. -/
inductive Found where
  | null
  | boolean (value : Bool)
  | integer (value : Int)
  | double (value : Binary64)
  | text (value : String)
  | sequence
  | map
  deriving DecidableEq, Repr, Inhabited

namespace Found

/-- What a value shows of itself in an error. -/
def ofJson : Json → Found
  | .null => .null
  | .bool value => .boolean value
  | .integer value => .integer value
  | .double value => .double value
  | .string value => .text value
  | .array _ => .sequence
  | .object _ => .map

/-- The wording of what was found. -/
def message : Found → String
  | .null => "null"
  | .boolean value => "boolean `" ++ (if value then "true" else "false") ++ "`"
  | .integer value => "integer `" ++ toString value ++ "`"
  | .double value => "floating point `" ++ Json.doubleFormat.write value ++ "`"
  | .text value => "string " ++ Text.quoted value
  | .sequence => "sequence"
  | .map => "map"

end Found

/-- What is wrong with a value. -/
inductive DecodeError where
  | invalidType (found : Found) (expected : String)
  | outOfRange (value : Int) (expected : String)
  | missingField (name : String)
  | unknownVariant (name : String) (known : List String)
  | invalidLength (length : Nat) (expected : String)
  deriving DecidableEq, Repr, Inhabited

/-- The wording of an error. -/
def DecodeError.message : DecodeError → String
  | .invalidType found expected => "invalid type: " ++ found.message ++ ", expected " ++ expected
  | .outOfRange value expected =>
      "invalid value: " ++ (Found.integer value).message ++ ", expected " ++ expected
  | .missingField name => "missing field `" ++ name ++ "`"
  | .unknownVariant name known =>
      "unknown variant `" ++ name ++ "`, expected " ++
        " or ".intercalate (known.map fun k => "`" ++ k ++ "`")
  | .invalidLength length expected =>
      "invalid length " ++ toString length ++ ", expected " ++ expected

/-! ### Plain values -/

namespace Decode

/-- The error for a value of another kind. -/
def mismatch {α : Type} (value : Json) (expected : String) : Except DecodeError α :=
  .error (.invalidType (Found.ofJson value) expected)

/-- A truth value. -/
def boolean : Json → Except DecodeError Bool
  | .bool value => .ok value
  | other => mismatch other "a boolean"

/-- A text. -/
def text : Json → Except DecodeError String
  | .string value => .ok value
  | other => mismatch other "a string"

/-- A range of whole numbers, both ends included, and its name. -/
structure IntegerRange where
  name : String
  least : Int
  greatest : Int

/-- Whole numbers of 64 bits with a sign. -/
def signed64 : IntegerRange := ⟨"i64", Binary64.minInteger, Binary64.maxInteger⟩

/-- Whole numbers of 32 bits without a sign. -/
def unsigned32 : IntegerRange := ⟨"u32", 0, (twoTo 32 : Nat) - 1⟩

/-- A whole number of a range. -/
def integerIn (range : IntegerRange) : Json → Except DecodeError Int
  | .integer value =>
      if range.least ≤ value ∧ value ≤ range.greatest then .ok value
      else .error (.outOfRange value range.name)
  | other => mismatch other range.name

/-- A value that may be missing. -/
def optional {α : Type} (read : Json → Except DecodeError α) :
    Json → Except DecodeError (Option α)
  | .null => .ok none
  | other => (read other).map some

/-- A list. -/
def list {α : Type} (read : Json → Except DecodeError α) : Json → Except DecodeError (List α)
  | .array elements => elements.mapM read
  | other => mismatch other "a sequence"

end Decode

/-! ### Records -/

/-- How a record is read.  A draft `δ` holds the fields read so far, and is finished into the record
or names the first field that is missing. -/
structure RecordFormat (δ α : Type) where
  name : String
  fields : List String
  /-- What is expected of an array with too many elements. -/
  tooMany : String
  start : δ
  read : δ → String → Json → Except DecodeError δ
  finish : δ → Except String α

namespace RecordFormat

variable {δ α : Type}

/-- Fields read one after the other. -/
def readAll (f : RecordFormat δ α) (members : List (String × Json)) : Except DecodeError δ :=
  members.foldlM (fun draft member => f.read draft member.1 member.2) f.start

/-- A record written as members. -/
def ofMembers (f : RecordFormat δ α) (members : List (String × Json)) : Except DecodeError α := do
  (f.finish (← f.readAll members)).mapError .missingField

/-- A record written as elements in the order of its fields. -/
def ofElements (f : RecordFormat δ α) (elements : List Json) : Except DecodeError α := do
  let draft ← f.readAll (f.fields.zip elements)
  if f.fields.length < elements.length then .error (.invalidLength elements.length f.tooMany)
  else
    (f.finish draft).mapError fun _ => .invalidLength elements.length
      ("struct " ++ f.name ++ " with " ++ toString f.fields.length ++ " elements")

/-- A record. -/
def decode (f : RecordFormat δ α) : Json → Except DecodeError α
  | .object members => f.ofMembers members
  | .array elements => f.ofElements elements
  | other => Decode.mismatch other ("struct " ++ f.name)

end RecordFormat

/-- A field that has to be there. -/
def required {α : Type} (name : String) : Option α → Except String α
  | some value => .ok value
  | none => .error name

/-- What is expected of an array with too many elements. -/
def fewerElements : String := "fewer elements in array"

/-- What is expected of the rest of an array behind its first element, where the rest has too many
elements. -/
def elementCount (n : Nat) : String :=
  if n = 1 then "1 element in sequence" else toString n ++ " elements in sequence"

end SchemaScope
