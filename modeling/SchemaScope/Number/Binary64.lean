/-
**Double-precision numbers in exact arithmetic.**

A double is kept as a sign, a mantissa and a binary exponent, so that every operation on it is an
operation on integers.  A quotient of natural numbers is rounded to the nearest double, and of two
equally near ones to the one with the even mantissa.

Main definitions:

* `Binary64` — a finite double or an infinity;
* `Binary64.ofRatio` — the double nearest to a quotient;
* `Binary64.ofDecimal` — the double nearest to digits with a power of ten;
* `Binary64.mul`, `Binary64.div` — the rounded product and quotient;
* `Binary64.integer?` — the value of a double without a fraction, within 64 bits;
* `Binary64.toBits` — the sign, exponent and fraction packed in 64 bits.
-/

import SchemaScope.Number.Power

set_option autoImplicit false

namespace SchemaScope

/-- A double: the finite value `± mantissa · 2 ^ exponent`, or an infinity.  In a finite value the
mantissa has 53 bits, or the exponent is the least one. -/
inductive Binary64 where
  | finite (negative : Bool) (mantissa : Nat) (exponent : Int)
  | infinite (negative : Bool)
  deriving DecidableEq, Repr, Inhabited

namespace Binary64

/-- The least exponent of a finite double. -/
def leastExponent : Int := -1074

/-- The greatest exponent of a finite double. -/
def greatestExponent : Int := 971

/-- Zero. -/
def zero : Binary64 := .finite false 0 leastExponent

/-- The sign is set on zeros and infinities too. -/
def isNegative : Binary64 → Bool
  | .finite negative _ _ => negative
  | .infinite negative => negative

/-- The same magnitude with the other sign. -/
def neg : Binary64 → Binary64
  | .finite negative m e => .finite (!negative) m e
  | .infinite negative => .infinite (!negative)

@[simp] theorem neg_neg (x : Binary64) : x.neg.neg = x := by cases x <;> simp [neg]

/-- Whether the value is a zero of either sign. -/
def isZero : Binary64 → Bool
  | .finite _ m _ => m == 0
  | .infinite _ => false

/-- Whether the value is an infinity. -/
def isInfinite : Binary64 → Bool
  | .finite _ _ _ => false
  | .infinite _ => true

/-! ### Rounding -/

/-- The quotient `num / (den · 2 ^ e)` as numerator and denominator. -/
def scaled (num den : Nat) (e : Int) : Nat × Nat :=
  if 0 ≤ e then (num, den * twoTo e.toNat) else (num * twoTo (-e).toNat, den)

/-- The natural number nearest to a quotient; a half goes to the even neighbour. -/
def roundDiv (num den : Nat) : Nat :=
  let q := num / den
  let r := num % den
  if den < 2 * r || (2 * r == den && q % 2 == 1) then q + 1 else q

/-- The double with the given mantissa, which has at most 53 bits or is `2 ^ 53`, and exponent. -/
def pack (negative : Bool) (m : Nat) (e : Int) : Binary64 :=
  let (m, e) := if m == twoTo 53 then (twoTo 52, e + 1) else (m, e)
  if greatestExponent < e then .infinite negative else .finite negative m e

/-- The exponent at which a positive quotient has a mantissa of 53 bits, but never less than the
least exponent. -/
def exponentFor (num den : Nat) : Int :=
  let e := max ((num.log2 : Int) - den.log2 - 53) leastExponent
  let (n, d) := scaled num den e
  if twoTo 53 ≤ n / d then e + 1 else e

/-- The double nearest to `num / den`, with the given sign. -/
def ofRatio (negative : Bool) (num den : Nat) : Binary64 :=
  if num == 0 || den == 0 then .finite negative 0 leastExponent
  else
    let e := exponentFor num den
    let (n, d) := scaled num den e
    pack negative (roundDiv n d) e

/-- The double nearest to a natural number. -/
def ofNat (n : Nat) : Binary64 := ofRatio false n 1

/-- The double nearest to an integer. -/
def ofInt (n : Int) : Binary64 := ofRatio (n < 0) n.natAbs 1

/-- The double nearest to `digits · 10 ^ power`.  Values far outside the range of doubles are
settled without computing the power. -/
def ofDecimal (negative : Bool) (digits : Nat) (power : Int) : Binary64 :=
  let size : Int := (Nat.toDigits 10 digits).length
  if digits == 0 || size + power < -330 then .finite negative 0 leastExponent
  else if 310 < size + power then .infinite negative
  else if 0 ≤ power then ofRatio negative (digits * tenTo power.toNat) 1
  else ofRatio negative digits (tenTo (-power).toNat)

/-! ### Arithmetic -/

/-- A mantissa and an exponent as a quotient. -/
def ratio (m : Nat) (e : Int) : Nat × Nat :=
  if 0 ≤ e then (m * twoTo e.toNat, 1) else (m, twoTo (-e).toNat)

/-- The rounded product of two numbers.  The product of a zero and an infinity, which no reading
asks for, counts as an infinity. -/
def mul : Binary64 → Binary64 → Binary64
  | .finite s m e, .finite t n f =>
      let (a, b) := ratio m e
      let (c, d) := ratio n f
      ofRatio (s != t) (a * c) (b * d)
  | x, y => .infinite (x.isNegative != y.isNegative)

/-- The rounded quotient of two numbers.  The quotient by a zero or of an infinity, which no reading
asks for, counts as an infinity. -/
def div : Binary64 → Binary64 → Binary64
  | .finite s m e, .finite t n f =>
      if n == 0 then .infinite (s != t)
      else
        let (a, b) := ratio m e
        let (c, d) := ratio n f
        ofRatio (s != t) (a * d) (b * c)
  | x, y => .infinite (x.isNegative != y.isNegative)

/-! ### Integral values -/

/-- The bounds of 64-bit signed integers. -/
def minInteger : Int := -(twoTo 63 : Nat)

/-- The greatest 64-bit signed integer. -/
def maxInteger : Int := (twoTo 63 : Nat) - 1

/-- An integer moved to the nearest end if it lies outside 64 bits. -/
def clamp (n : Int) : Int := max minInteger (min maxInteger n)

/-- The magnitude of `mantissa · 2 ^ exponent`, if it has no fraction. -/
def wholeMagnitude? (m : Nat) (e : Int) : Option Nat :=
  let (n, d) := ratio m e
  if n % d == 0 then some (n / d) else none

/-- The value of a finite double without a fraction, clamped to 64 bits. -/
def integer? : Binary64 → Option Int
  | .finite negative m e =>
      (wholeMagnitude? m e).map fun n => clamp (if negative then -(n : Int) else n)
  | .infinite _ => none

/-! ### Bits -/

/-- The sign, exponent and fraction packed in 64 bits. -/
def toBits : Binary64 → Nat
  | .finite negative m e =>
      let sign := if negative then twoTo 63 else 0
      if m < twoTo 52 then sign + m
      else sign + (e + 1075).toNat * twoTo 52 + (m - twoTo 52)
  | .infinite negative => (if negative then twoTo 63 else 0) + 2047 * twoTo 52

end Binary64

end SchemaScope
