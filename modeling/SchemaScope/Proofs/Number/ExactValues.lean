/-
**What a number literal writes.**

The text of a number literal writes a number: its digits in their base, or its decimal digits
multiplied by a power of ten.  This number is taken here as it is written.  Nothing is rounded, no
number is too big, and the suffix of a big integer changes nothing.  Digits behind a zero are octal if
they can be, as in old scripts.

Main definitions:

* `Literal.wholeOf?` — digits and a power of ten as a whole number;
* `Literal.whole?` — the whole number that a text writes, if it writes one.

Main results:

* `Literal.Numeral.whole?_eq` — **a numeral writes its number**, in every base, with separators, in
  both cases, and with or without a suffix.
-/

import SchemaScope.Proofs.Number.Numerals

set_option autoImplicit false

namespace SchemaScope.Literal

/-- The whole number that digits give with a power of ten, if they give one. -/
def wholeOf? (digits : Nat) (power : Int) : Option Nat :=
  let numerator := digits * 10 ^ power.toNat
  let denominator := 10 ^ (-power).toNat
  if numerator % denominator = 0 then some (numerator / denominator) else none

/-- The whole number that a decimal writes, if it writes one. -/
def wholeDecimal? (text : List Char) : Option Nat :=
  (decimalParts? text).bind fun (digits, power) => wholeOf? digits power

/-- The whole number that a text writes, if it writes one. -/
def whole? (text : List Char) : Option Nat :=
  match dropSuffix (plain text) with
  | '0' :: 'x' :: digits => digits? 16 digits
  | '0' :: 'o' :: digits => digits? 8 digits
  | '0' :: 'b' :: digits => digits? 2 digits
  | '0' :: c :: digits => (digits? 8 (c :: digits)).or (wholeDecimal? ('0' :: c :: digits))
  | digits => wholeDecimal? digits

theorem eq_zero_of_toLower {c : Char} (h : c.toLower = '0') : c = '0' := by
  unfold Char.toLower at h
  split at h
  · next hupper =>
    -- a letter in upper case becomes a letter
    have hle : 'A'.val.toNat ≤ c.val.toNat := UInt32.le_iff_toNat_le.1 hupper.1
    have hle' : c.val.toNat ≤ 'Z'.val.toNat := UInt32.le_iff_toNat_le.1 hupper.2
    have hval := congrArg (fun d : Char => d.val.toNat) h
    simp only [UInt32.toNat_add] at hval
    simp at hle hle' hval
    omega
  · exact h

namespace Numeral

variable {n : Numeral}

/-- Without separators and suffix a numeral is left in lower case. -/
theorem dropSuffix_plain {opening text : List Char} (hopening : opening ∈ n.base.openings)
    (big : Bool)
    (htext : text.filter (· != '_') = opening ++ (n.digits ++ if big then ['n'] else [])) :
    dropSuffix (plain text) = opening.map Char.toLower ++ n.digits.map Char.toLower := by
  have hsuffix : (if big then ['n'] else []).map Char.toLower = if big then ['n'] else [] := by
    cases big <;> rfl
  rw [plain, htext, List.map_append, List.map_append, hsuffix, ← List.append_assoc]
  refine dropSuffix_append ?_ (by cases big <;> simp)
  rw [List.mem_append, not_or]
  constructor
  · have hletters : ∀ b : Base, ∀ o ∈ b.openings, 'n' ∉ o.map Char.toLower := by
      intro b
      cases b <;> decide
    exact hletters n.base opening hopening
  · exact fun hmem => absurd (n.mem_digitChars hmem) (by decide)

theorem wholeDecimal?_map_toLower (hbase : n.base = .decimal) :
    wholeDecimal? (n.digits.map Char.toLower) = some n.value := by
  rw [wholeDecimal?, decimalParts?_map_toLower hbase]
  simp [wholeOf?, Nat.mod_one]

/-- **A numeral writes its number.** -/
theorem whole?_eq {opening text : List Char} (hopening : opening ∈ n.base.openings) (big : Bool)
    (htext : text.filter (· != '_') = opening ++ (n.digits ++ if big then ['n'] else [])) :
    whole? text = some n.value := by
  have hread := n.digits?_map_toLower
  rw [whole?, dropSuffix_plain hopening big htext]
  cases hbase : n.base with
  | decimal =>
      rw [hbase] at hopening
      obtain rfl := List.mem_singleton.1 hopening
      have hdigit : ∀ {c : Char}, c ∈ n.digits.map Char.toLower → c.isDigit = true :=
        isDigit_of_mem hbase
      -- a zero at the front is the only digit
      have hsingle : ∀ {c : Char} {rest : List Char},
          n.digits.map Char.toLower ≠ '0' :: c :: rest := by
        intro c rest heq
        have hfront : n.digits.head? = some '0' := by
          have hhead := congrArg List.head? heq
          rw [List.head?_map] at hhead
          obtain ⟨d, hd, hlower⟩ := Option.map_eq_some_iff.1 hhead
          rw [hd, eq_zero_of_toLower hlower]
        have hone := congrArg List.length (n.no_leading_zero hbase hfront)
        have htwo := congrArg List.length heq
        simp at hone htwo
        omega
      rw [List.map_nil, List.nil_append]
      split
      · next heq => exact absurd heq hsingle
      · next heq => exact absurd heq hsingle
      · next heq => exact absurd heq hsingle
      · next heq => exact absurd heq hsingle
      · exact wholeDecimal?_map_toLower hbase
  | hexadecimal | octal | binary =>
      rw [hbase] at hopening hread
      rcases List.mem_pair.1 hopening with rfl | rfl <;> exact hread

end Numeral

end SchemaScope.Literal
