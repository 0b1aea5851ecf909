/-
**The shortest decimal of a double.**

The reals that round to a given double form an interval around it.  The shortest decimal of the
double is the one with the fewest digits in that interval, and of several the nearest to the double.

Main definitions:

* `Shortest.Interval` — the double and the ends of its interval, over one denominator;
* `Shortest.candidate?` — the decimal on a grid of powers of ten that lies in the interval;
* `Shortest.decimal` — the digits and the power of ten of the shortest decimal.
-/

import SchemaScope.Number.Binary64

set_option autoImplicit false

namespace SchemaScope.Shortest

/-- A value between the two ends of the interval that rounds to it, all over one denominator, and
whether the ends belong to the interval. -/
structure Interval where
  low : Nat
  value : Nat
  high : Nat
  denominator : Nat
  closed : Bool

/-- The interval of reals that round to `m · 2 ^ e`.  Below a power of two the neighbour is half as
far away. -/
def interval (m : Nat) (e : Int) : Interval :=
  let gap := if m == twoTo 52 && Binary64.leastExponent < e then 1 else 2
  let (factor, denominator) := Binary64.ratio 1 (e - 2)
  ⟨(4 * m - gap) * factor, 4 * m * factor, (4 * m + 2) * factor, denominator, m % 2 == 0⟩

/-- The interval in units of `10 ^ k`. -/
def Interval.inUnits (i : Interval) (k : Int) : Interval :=
  if 0 ≤ k then { i with denominator := i.denominator * tenTo k.toNat }
  else
    let factor := tenTo (-k).toNat
    { i with low := i.low * factor, value := i.value * factor, high := i.high * factor }

/-- Whether a whole number of units lies in the interval. -/
def Interval.holds (i : Interval) (c : Nat) : Bool :=
  let x := c * i.denominator
  if i.closed then i.low ≤ x && x ≤ i.high else i.low < x && x < i.high

/-- The whole number of units in the interval that is nearest to the value. -/
def Interval.candidate? (i : Interval) : Option Nat :=
  let below := i.value / i.denominator
  match i.holds below, i.holds (below + 1) with
  | true, true =>
      -- the nearer one, and of two equally near the even one
      let middle := (2 * below + 1) * i.denominator
      if 2 * i.value < middle || (2 * i.value == middle && below % 2 == 0) then some below
      else some (below + 1)
  | true, false => some below
  | false, true => some (below + 1)
  | false, false => none

/-- The power of ten of the first digit of a positive quotient. -/
def leadingPower (num den : Nat) : Int :=
  if den ≤ num then ((Nat.toDigits 10 (num / den)).length : Int) - 1
  else
    match (List.range 400).find? (fun j => den ≤ num * tenTo (j + 1)) with
    | some j => -(j + 1 : Int)
    | none => 0

/-- Digits without the zeros at their end, the power of ten raised to match. -/
def trim : Nat → Nat → Int → Nat × Int
  | 0, digits, power => (digits, power)
  | bound + 1, digits, power =>
      if digits % 10 == 0 && 0 < digits then trim bound (digits / 10) (power + 1)
      else (digits, power)

/-- The digits and the power of ten of the shortest decimal of `m · 2 ^ e`. -/
def decimal (m : Nat) (e : Int) : Nat × Int :=
  let i := interval m e
  let lead := leadingPower i.value i.denominator
  let found := (List.range 17).findSome? fun (n : Nat) =>
    let k := lead - n
    (i.inUnits k).candidate?.map fun c => (c, k)
  match found with
  | some (c, k) => trim 20 c k
  | none => (0, 0)

end SchemaScope.Shortest
