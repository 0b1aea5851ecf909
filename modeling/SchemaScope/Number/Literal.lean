/-
**The value of a number's text.**

Numbers are read as they are written in scripts: digit separators are dropped and letter case does
not matter.  After a radix mark the digits stand for a 64-bit signed integer, and digits beyond that
range have no value; otherwise the text is a decimal, and a big integer's suffix is dropped.

Main definitions:

* `Literal.integerInRadix?` — a signed integer in a radix, within 64 bits;
* `Literal.decimal?` — the double nearest to a decimal text;
* `Literal.value?` — the value of a number's text.
-/

import SchemaScope.Number.Binary64

set_option autoImplicit false

namespace SchemaScope.Literal

/-- The value of a digit in a radix. -/
def digitIn? (radix : Nat) (c : Char) : Option Nat :=
  let value :=
    if c.isDigit then some (c.toNat - '0'.toNat)
    else if 'a' ≤ c && c ≤ 'z' then some (c.toNat - 'a'.toNat + 10)
    else if 'A' ≤ c && c ≤ 'Z' then some (c.toNat - 'A'.toNat + 10)
    else none
  value.filter (· < radix)

/-- The number that digits stand for in a radix, read on from `n`. -/
def digitsFrom? (radix n : Nat) : List Char → Option Nat
  | [] => some n
  | c :: cs => do digitsFrom? radix (n * radix + (← digitIn? radix c)) cs

/-- The number that at least one digit stands for in a radix. -/
def digits? (radix : Nat) : List Char → Option Nat
  | [] => none
  | c :: cs => digitsFrom? radix 0 (c :: cs)

/-- A sign, set if negative, and what follows it. -/
def splitSign : List Char → Bool × List Char
  | '-' :: cs => (true, cs)
  | '+' :: cs => (false, cs)
  | cs => (false, cs)

/-- A signed integer in a radix, if it fits 64 bits. -/
def integerInRadix? (radix : Nat) (text : List Char) : Option Int := do
  let (negative, body) := splitSign text
  let n ← digits? radix body
  let value : Int := if negative then -(n : Int) else n
  if Binary64.minInteger ≤ value ∧ value ≤ Binary64.maxInteger then some value else none

/-- The power of ten that follows the mark of an exponent. -/
def exponent? (text : List Char) : Option Int := do
  let (negative, body) := splitSign text
  let n ← digits? 10 body
  return if negative then -(n : Int) else n

/-- The digits of a decimal with an optional point and an optional exponent, as one number, and the
power of ten that it is to be multiplied by. -/
def decimalParts? (text : List Char) : Option (Nat × Int) := do
  let whole := text.takeWhile Char.isDigit
  let afterWhole := text.dropWhile Char.isDigit
  let (fraction, rest) := match afterWhole with
    | '.' :: cs => (cs.takeWhile Char.isDigit, cs.dropWhile Char.isDigit)
    | cs => ([], cs)
  let digits ← digits? 10 (whole ++ fraction)
  let power ← match rest with
    | [] => some 0
    | e :: cs => if e == 'e' || e == 'E' then exponent? cs else none
  return (digits, power - fraction.length)

/-- The double nearest to a decimal without a sign. -/
def unsignedDecimal? (negative : Bool) (text : List Char) : Option Binary64 :=
  (decimalParts? text).map fun (digits, power) => Binary64.ofDecimal negative digits power

/-- The double nearest to a decimal text with an optional sign.  The words for an infinity are read
too. -/
def decimal? (text : List Char) : Option Binary64 :=
  let (negative, body) := splitSign text
  if body == "inf".toList || body == "infinity".toList then some (.infinite negative)
  else unsignedDecimal? negative body

/-- The text without separators, in lower case. -/
def plain (text : List Char) : List Char := (text.filter (· != '_')).map Char.toLower

/-- The text without the suffix of a big integer. -/
def dropSuffix (text : List Char) : List Char := (text.reverse.dropWhile (· == 'n')).reverse

/-- The value of a number's text. -/
def valueOf? (text : List Char) : Option Binary64 :=
  match plain text with
  | '0' :: 'x' :: digits => (integerInRadix? 16 digits).map Binary64.ofInt
  | '0' :: 'o' :: digits => (integerInRadix? 8 digits).map Binary64.ofInt
  | '0' :: 'b' :: digits => (integerInRadix? 2 digits).map Binary64.ofInt
  | cs => decimal? (dropSuffix cs)

/-- The value of a number's text. -/
def value? (text : String) : Option Binary64 := valueOf? text.toList

end SchemaScope.Literal
