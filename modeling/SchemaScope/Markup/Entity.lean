/-
**Character references.**

Markup writes a character by a reference: an ampersand, a name or a number after a `#`, and a
semicolon.  A text in which an ampersand opens no known reference has no decoded form.

Main definitions:

* `Reference.ofName?`, `Reference.ofNumber?` — the character that a name or a number stands for;
* `Markup.decode?` — a text with its references decoded;
* `Markup.encode` — a text written so that markup cannot be mistaken for it.
-/

import SchemaScope.Markup.CharacterName

set_option autoImplicit false

namespace SchemaScope

namespace Reference

/-! ### Names -/

/-- The character that a name stands for. -/
def ofName? (name : List Char) : Option Char :=
  (names.find? fun (n, _) => n.toList = name).map Prod.snd

/-! ### Numbers -/

/-- The value of a digit in the given base. -/
def digit? (base : Nat) (c : Char) : Option Nat :=
  let value :=
    if '0' ≤ c ∧ c ≤ '9' then some (c.toNat - '0'.toNat)
    else if 'a' ≤ c ∧ c ≤ 'z' then some (c.toNat - 'a'.toNat + 10)
    else if 'A' ≤ c ∧ c ≤ 'Z' then some (c.toNat - 'A'.toNat + 10)
    else none
  value.filter (· < base)

/-- The number that digits write in the given base.  There has to be a digit. -/
def number? (base : Nat) (digits : List Char) : Option Nat :=
  if digits.isEmpty then none
  else digits.foldlM (fun n c => (digit? base c).map fun d => n * base + d) 0

/-- The character that a number stands for: decimal, or to the base sixteen after an `x`.  Zero and
numbers of no character stand for none. -/
def ofNumber? (text : List Char) : Option Char := do
  let n ← match text with
    | 'x' :: digits => number? 16 digits
    | digits => number? 10 digits
  if n ≠ 0 ∧ n.isValidChar then some (Char.ofNat n) else none

/-- The character that stands between the ampersand and the semicolon of a reference. -/
def resolve? : List Char → Option Char
  | '#' :: number => ofNumber? number
  | name => ofName? name

end Reference

namespace Markup

/-! ### Decoding -/

/-- A text with its references decoded.  `opened` holds what has been read since an ampersand, last
character first; inside a reference another ampersand, or the end, leaves it without a meaning. -/
def decodeFrom? : Option (List Char) → List Char → Option (List Char)
  | none, [] => some []
  | none, c :: cs =>
      if c = '&' then decodeFrom? (some []) cs else (decodeFrom? none cs).map (c :: ·)
  | some _, [] => none
  | some opened, c :: cs =>
      if c = ';' then do
        let resolved ← Reference.resolve? opened.reverse
        let rest ← decodeFrom? none cs
        return resolved :: rest
      else if c = '&' then none
      else decodeFrom? (some (c :: opened)) cs

/-- A text with its references decoded, unless one of them has no meaning. -/
def decode? (text : List Char) : Option (List Char) := decodeFrom? none text

/-- A text with its references decoded, or as it is written if that has no meaning. -/
def decodeOrKeep (text : List Char) : List Char := (decode? text).getD text

/-! ### Encoding -/

/-- How a character is written in an attribute value. -/
def encodeChar : Char → List Char
  | '&' => "&amp;".toList
  | '<' => "&lt;".toList
  | '>' => "&gt;".toList
  | '"' => "&quot;".toList
  | '\'' => "&apos;".toList
  | c => [c]

/-- A text written as an attribute value. -/
def encode (text : List Char) : List Char := text.flatMap encodeChar

end Markup

end SchemaScope
