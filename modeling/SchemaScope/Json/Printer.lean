/-
**JSON values as text.**

Two forms are written: a compact one on a single line, and a wide one that gives every element and
member a line of its own, indented by two blanks a level.  Both escape quotes, backslashes and
control characters and nothing else.

Main definitions:

* `DoubleFormat`, `Json.doubleFormat` — how doubles are written;
* `Json.quote` — a text between quotes;
* `Json.compact`, `Json.prettyText` — the two forms.
-/

import SchemaScope.Json.Value
import SchemaScope.Number.Shortest

set_option autoImplicit false

namespace SchemaScope

/-! ### Doubles -/

/-- The decisions in writing a double: the powers of ten of the first digit between which it is
written out positionally, both included. -/
structure DoubleFormat where
  leastPositional : Int
  greatestPositional : Int

namespace DoubleFormat

/-- Zeros. -/
def zeros (n : Nat) : String := String.ofList (List.replicate n '0')

/-- Digits with a point placed so that the first digit has the given power of ten.  There is always
a digit on either side of the point. -/
def positional (digits : String) (lead : Int) : String :=
  if lead < 0 then "0." ++ zeros (-lead - 1).toNat ++ digits
  else
    let whole := lead.toNat + 1
    let size := digits.length
    if size ≤ whole then digits ++ zeros (whole - size) ++ ".0"
    else String.ofList (digits.toList.take whole) ++ "." ++ String.ofList (digits.toList.drop whole)

/-- Digits with a point after the first and a signed power of ten. -/
def scientific (digits : String) (lead : Int) : String :=
  let sign := if lead < 0 then "e-" else "e+"
  let mantissa := match digits.toList with
    | [] => ""
    | [c] => String.singleton c
    | c :: cs => String.singleton c ++ "." ++ String.ofList cs
  mantissa ++ sign ++ toString lead.natAbs

/-- The text of a double: the fewest digits that read back.  An infinity, which no document can
hold, is written as `null`. -/
def write (format : DoubleFormat) : Binary64 → String
  | .infinite _ => "null"
  | .finite negative m e =>
      let sign := if negative then "-" else ""
      if m == 0 then sign ++ "0.0"
      else
        let (value, power) := Shortest.decimal m e
        let digits := toString value
        let lead := power + digits.length - 1
        let body := if format.leastPositional ≤ lead ∧ lead ≤ format.greatestPositional then
            positional digits lead else scientific digits lead
        sign ++ body

end DoubleFormat

namespace Json

/-- Doubles from a hundred-thousandth up to ten quadrillions are written positionally. -/
def doubleFormat : DoubleFormat := ⟨-5, 15⟩

/-! ### Strings -/

/-- A hexadecimal digit in lower case. -/
def hexDigit (n : Nat) : Char := (Nat.digitChar n).toLower

/-- A character as it stands between quotes. -/
def escapeChar (c : Char) : List Char :=
  match c with
  | '"' => ['\\', '"']
  | '\\' => ['\\', '\\']
  | '\n' => ['\\', 'n']
  | '\r' => ['\\', 'r']
  | '\t' => ['\\', 't']
  | '\x08' => ['\\', 'b']
  | '\x0c' => ['\\', 'f']
  | c =>
      if c.toNat < 0x20 then ['\\', 'u', '0', '0', hexDigit (c.toNat / 16), hexDigit (c.toNat % 16)]
      else [c]

/-- A text as it stands between quotes. -/
def escape (text : List Char) : List Char := text.flatMap escapeChar

/-- A text between quotes. -/
def quote (text : String) : List Char := '"' :: escape text.toList ++ ['"']

/-! ### Values -/

/-- The decimal digits of an integer after its sign. -/
def integerText (n : Int) : List Char :=
  if n < 0 then '-' :: Nat.toDigits 10 n.natAbs else Nat.toDigits 10 n.natAbs

/-- A value that holds no other: `null`, a truth value, a number or a string. -/
def scalarText : Json → List Char
  | .null => ['n', 'u', 'l', 'l']
  | .bool true => ['t', 'r', 'u', 'e']
  | .bool false => ['f', 'a', 'l', 's', 'e']
  | .integer value => integerText value
  | .double value => (doubleFormat.write value).toList
  | .string text => quote text
  | .array _ | .object _ => []

mutual

/-- The form without blanks. -/
def compactText : Json → List Char
  | .array [] => ['[', ']']
  | .array (v :: rest) => '[' :: compactText v ++ compactElements rest ++ [']']
  | .object [] => ['\x7b', '\x7d']
  | .object ((k, v) :: rest) =>
      '\x7b' :: quote k ++ ':' :: compactText v ++ compactMembers rest ++ ['\x7d']
  | v => scalarText v

/-- The further elements, each after a comma. -/
def compactElements : List Json → List Char
  | [] => []
  | v :: rest => ',' :: compactText v ++ compactElements rest

/-- The further members, each after a comma. -/
def compactMembers : List (String × Json) → List Char
  | [] => []
  | (k, v) :: rest => ',' :: quote k ++ ':' :: compactText v ++ compactMembers rest

end

/-- The form without blanks. -/
def compact (v : Json) : String := String.ofList (compactText v)

/-- A line end and the blanks of a level. -/
def newline (level : Nat) : List Char := '\n' :: List.replicate (2 * level) ' '

mutual

/-- The wide form at a level of indentation. -/
def prettyText (level : Nat) : Json → List Char
  | .array [] => ['[', ']']
  | .array (v :: rest) =>
      '[' :: newline (level + 1) ++ prettyText (level + 1) v ++ prettyElements (level + 1) rest ++
        newline level ++ [']']
  | .object [] => ['\x7b', '\x7d']
  | .object ((k, v) :: rest) =>
      '\x7b' :: newline (level + 1) ++ quote k ++ ':' :: ' ' :: prettyText (level + 1) v ++
        prettyMembers (level + 1) rest ++ newline level ++ ['\x7d']
  | v => scalarText v

/-- The further elements, each after a comma and on its own line. -/
def prettyElements (level : Nat) : List Json → List Char
  | [] => []
  | v :: rest => ',' :: newline level ++ prettyText level v ++ prettyElements level rest

/-- The further members, each after a comma and on its own line. -/
def prettyMembers (level : Nat) : List (String × Json) → List Char
  | [] => []
  | (k, v) :: rest =>
      ',' :: newline level ++ quote k ++
        ':' :: ' ' :: prettyText level v ++ prettyMembers level rest

end

end Json

end SchemaScope
