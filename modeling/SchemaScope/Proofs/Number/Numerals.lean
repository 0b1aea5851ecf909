/-
**Numerals of whole numbers.**

A whole number is written in one of four bases.  A decimal numeral has nothing in front of its
digits and no zero at their front; the other numerals open with a zero and a letter, and may have
zeros at the front.  The case of letters does not matter.  Separators are dropped before a text is
read, so it does not matter either where they stand.  A decimal numeral has a value whatever its
size, and with or without the suffix of a big integer.  A numeral in another base is read as a 64-bit
signed integer: it has a value if it stands for one, and with the suffix it has none.

Main definitions:

* `Literal.Base` — the bases, and what numerals in them open with;
* `Literal.Numeral`, `Literal.Numeral.value` — the digits of a numeral, and the number they give;
* `Literal.Spells` — the texts that write a number.

Main results:

* `Literal.digitsFrom?_map_toLower` — digits in either case are read as their number;
* `Literal.Numeral.valueOf?_decimal`, `Literal.Numeral.valueOf?_marked` — the values of numerals;
* `Literal.integer?_of_spells` — **all texts that write a number below `2 ^ 53` have this number as
  their integer**.
-/

import SchemaScope.Proofs.Number.WholeNumbers
import SchemaScope.Number.Literal

set_option autoImplicit false

namespace SchemaScope.Literal

/-! ### Numerals -/

/-- The bases in which whole numbers are written. -/
inductive Base where
  | decimal | hexadecimal | octal | binary
  deriving DecidableEq, Repr

namespace Base

/-- The number of digits of a base. -/
def size : Base → Nat
  | .decimal => 10
  | .hexadecimal => 16
  | .octal => 8
  | .binary => 2

/-- What numerals in a base open with: nothing, or a zero and a letter in either case. -/
def openings : Base → List (List Char)
  | .decimal => [[]]
  | .hexadecimal => [['0', 'x'], ['0', 'X']]
  | .octal => [['0', 'o'], ['0', 'O']]
  | .binary => [['0', 'b'], ['0', 'B']]

theorem size_le (b : Base) : b.size ≤ 16 := by cases b <;> decide

end Base

/-- The digits in the order of their values. -/
def digitChars : List Char := (List.range 16).map Nat.digitChar

/-- The value of a digit in either case; what is no digit has a value that no digit has. -/
def digitValue (c : Char) : Nat := digitChars.idxOf c.toLower

theorem digitValue_lt_of_all {size : Nat} {cs : List Char}
    (h : cs.all (fun c => digitValue c < size) = true) : ∀ c ∈ cs, digitValue c < size :=
  fun c hc => decide_eq_true_iff.1 (List.all_eq_true.1 h c hc)

/-- The digits of a numeral, the most significant one first. -/
structure Numeral where
  base : Base
  digits : List Char
  digits_ne_nil : digits ≠ []
  digitValue_lt : ∀ c ∈ digits, digitValue c < base.size
  /-- Decimal digits open with a zero only if it is the only digit. -/
  no_leading_zero : base = .decimal → digits.head? = some '0' → digits = ['0']

/-- The number that a numeral stands for. -/
def Numeral.value (n : Numeral) : Nat := Nat.ofDigits n.base.size (n.digits.map digitValue).reverse

/-! ### Digits -/

theorem toLower_mem_digitChars {c : Char} (h : digitValue c < 16) : c.toLower ∈ digitChars :=
  List.idxOf_lt_length_iff.1 h

theorem digitIn?_eq_filter {radix : Nat} (hradix : radix ≤ 16) (c : Char) :
    digitIn? radix c = (digitIn? 16 c).filter (· < radix) := by
  unfold digitIn?
  simp only [Option.filter_filter]
  congr 1
  funext d
  simp only [Bool.eq_and_self, decide_eq_true_eq]
  omega

theorem digitIn?_toLower {radix : Nat} (hradix : radix ≤ 16) {c : Char} (h : digitValue c < radix) :
    digitIn? radix c.toLower = some (digitValue c) := by
  have hread : digitChars.all (fun d => digitIn? 16 d == some (digitChars.idxOf d)) = true := by
    decide
  have hdigit := List.all_eq_true.1 hread _ (toLower_mem_digitChars (h.trans_le hradix))
  rw [digitIn?_eq_filter hradix, beq_iff_eq.1 hdigit]
  exact Option.filter_eq_some_iff.2 ⟨rfl, by simpa using h⟩

/-- **Digits in either case are read as their number.** -/
theorem digitsFrom?_map_toLower {radix : Nat} (hradix : radix ≤ 16) {cs : List Char}
    (h : ∀ c ∈ cs, digitValue c < radix) (n : Nat) :
    digitsFrom? radix n (cs.map Char.toLower) =
      some (n * radix ^ cs.length + Nat.ofDigits radix (cs.map digitValue).reverse) := by
  induction cs generalizing n with
  | nil => simp [digitsFrom?]
  | cons c cs ih =>
      rw [List.forall_mem_cons] at h
      rw [List.map_cons, digitsFrom?, digitIn?_toLower hradix h.1, List.map_cons, List.reverse_cons,
        Nat.ofDigits_append, Nat.ofDigits_singleton]
      refine (ih h.2 _).trans ?_
      simp only [List.length_cons, List.length_reverse, List.length_map, Option.some.injEq]
      ring

theorem digitsFrom?_eq_none {radix : Nat} {c : Char} (hc : digitIn? radix c = none) {cs : List Char}
    (h : c ∈ cs) (n : Nat) : digitsFrom? radix n cs = none := by
  induction cs generalizing n with
  | nil => cases h
  | cons d cs ih =>
      rcases List.mem_cons.1 h with rfl | h
      · rw [digitsFrom?, hc]
        rfl
      · rw [digitsFrom?]
        cases digitIn? radix d with
        | none => rfl
        | some value => exact ih h _

theorem digits?_eq (radix : Nat) {cs : List Char} (h : cs ≠ []) :
    digits? radix cs = digitsFrom? radix 0 cs := by
  cases cs with
  | nil => exact absurd rfl h
  | cons c cs => rfl

/-- What opens with no sign is read as it stands. -/
theorem splitSign_eq {cs : List Char} (h : ∀ c ∈ cs.head?, c ≠ '-' ∧ c ≠ '+') :
    splitSign cs = (false, cs) := by
  unfold splitSign
  split
  · exact absurd rfl (h '-' rfl).1
  · exact absurd rfl (h '+' rfl).2
  · rfl

/-! ### The value of a numeral -/

namespace Numeral

variable (n : Numeral)

theorem digits?_map_toLower : digits? n.base.size (n.digits.map Char.toLower) = some n.value := by
  rw [digits?_eq _ (by simpa using n.digits_ne_nil),
    digitsFrom?_map_toLower n.base.size_le n.digitValue_lt, Nat.zero_mul, Nat.zero_add]
  rfl

/-- Every digit, in lower case, is one of the sixteen. -/
theorem mem_digitChars {c : Char} (h : c ∈ n.digits.map Char.toLower) : c ∈ digitChars := by
  obtain ⟨d, hd, rfl⟩ := List.mem_map.1 h
  exact toLower_mem_digitChars ((n.digitValue_lt d hd).trans_le n.base.size_le)

theorem splitSign_map_toLower (suffix : List Char) :
    splitSign (n.digits.map Char.toLower ++ suffix) =
      (false, n.digits.map Char.toLower ++ suffix) := by
  have hsign : digitChars.all (fun c => c ≠ '-' ∧ c ≠ '+') = true := by decide
  refine splitSign_eq fun c hc => ?_
  rw [List.head?_append_of_ne_nil _ (by simpa using n.digits_ne_nil)] at hc
  simpa using List.all_eq_true.1 hsign c (n.mem_digitChars (List.mem_of_mem_head? hc))

/-- Digits are read as a signed integer of 64 bits if they stand for one. -/
theorem integerInRadix?_map_toLower :
    integerInRadix? n.base.size (n.digits.map Char.toLower) =
      if n.value < 2 ^ 63 then some (n.value : Int) else none := by
  have hsign := n.splitSign_map_toLower []
  rw [List.append_nil] at hsign
  have hmax : Binary64.maxInteger = 2 ^ 63 - 1 := rfl
  have hmin : Binary64.minInteger = -2 ^ 63 := rfl
  rw [integerInRadix?, hsign]
  simp only [n.digits?_map_toLower, Option.bind_eq_bind, Option.bind_some, Bool.false_eq_true,
    if_false]
  by_cases hfits : n.value < 2 ^ 63
  · rw [if_pos hfits, if_pos (by omega)]
  · rw [if_neg hfits, if_neg (by omega)]

/-- The suffix of a big integer is no digit. -/
theorem integerInRadix?_big :
    integerInRadix? n.base.size (n.digits.map Char.toLower ++ ['n']) = none := by
  have hsuffix : digitIn? n.base.size 'n' = none := by cases n.base <;> decide
  rw [integerInRadix?, n.splitSign_map_toLower]
  simp only [digits?_eq _ (List.append_ne_nil_of_right_ne_nil _ (List.cons_ne_nil 'n' [])),
    digitsFrom?_eq_none hsuffix (List.mem_append_right _ (List.mem_singleton_self 'n'))]
  rfl

variable {n}

/-- **The value of a numeral that opens with a zero and a letter.** -/
theorem valueOf?_marked (hbase : n.base ≠ .decimal) {opening text : List Char}
    (hopening : opening ∈ n.base.openings) (big : Bool)
    (htext : text.filter (· != '_') = opening ++ (n.digits ++ if big then ['n'] else [])) :
    valueOf? text =
      if big = false ∧ n.value < 2 ^ 63 then some (Binary64.ofInt n.value) else none := by
  have hradix : valueOf? text = (integerInRadix? n.base.size
      (n.digits.map Char.toLower ++ if big then ['n'] else [])).map Binary64.ofInt := by
    have hsuffix : (if big then ['n'] else []).map Char.toLower = if big then ['n'] else [] := by
      cases big <;> rfl
    rw [valueOf?, plain, htext, List.map_append, List.map_append, hsuffix]
    cases hn : n.base with
    | decimal => exact absurd hn hbase
    | hexadecimal | octal | binary =>
        rw [hn] at hopening
        rcases List.mem_pair.1 hopening with rfl | rfl <;> rfl
  cases big with
  | true => simp [hradix, n.integerInRadix?_big]
  | false =>
      simp only [hradix, Bool.false_eq_true, if_false, List.append_nil,
        n.integerInRadix?_map_toLower, true_and]
      split <;> rfl

theorem isDigit_of_mem (hbase : n.base = .decimal) {c : Char}
    (h : c ∈ n.digits.map Char.toLower) : c.isDigit = true := by
  have hdigit : digitChars.all (fun d => digitChars.idxOf d < 10 → d.isDigit = true) = true := by
    decide
  have hmem := n.mem_digitChars h
  obtain ⟨d, hd, rfl⟩ := List.mem_map.1 h
  have hlt := n.digitValue_lt d hd
  rw [hbase] at hlt
  exact (decide_eq_true_iff.1 (List.all_eq_true.1 hdigit _ hmem)) hlt

/-- Decimal digits are one number, which is not multiplied. -/
theorem decimalParts?_map_toLower (hbase : n.base = .decimal) :
    decimalParts? (n.digits.map Char.toLower) = some (n.value, 0) := by
  have hdigits : ∀ c ∈ n.digits.map Char.toLower, c.isDigit = true := fun c => isDigit_of_mem hbase
  have hread := n.digits?_map_toLower
  rw [hbase] at hread
  have hwhole : (n.digits.map Char.toLower).takeWhile Char.isDigit = n.digits.map Char.toLower :=
    List.takeWhile_eq_self_iff.2 hdigits
  have hrest : (n.digits.map Char.toLower).dropWhile Char.isDigit = [] :=
    List.dropWhile_eq_nil_iff.2 hdigits
  rw [decimalParts?, hwhole, hrest]
  simp only [List.append_nil]
  rw [show (10 : Nat) = Base.decimal.size from rfl, hread]
  rfl

/-- Decimal digits are read as the double nearest to their number. -/
theorem decimal?_map_toLower (hbase : n.base = .decimal) :
    decimal? (n.digits.map Char.toLower) = some (Binary64.ofDecimal false n.value 0) := by
  have hsign := n.splitSign_map_toLower []
  rw [List.append_nil] at hsign
  have hdigits : ∀ c ∈ n.digits.map Char.toLower, c.isDigit = true := fun c => isDigit_of_mem hbase
  have hword : ∀ word : String, word.toList.head? = some 'i' →
      (n.digits.map Char.toLower == word.toList) = false := by
    intro word hword
    rw [beq_eq_false_iff_ne]
    intro heq
    rw [← heq] at hword
    exact absurd (hdigits _ (List.mem_of_mem_head? hword)) (by decide)
  rw [decimal?, hsign]
  simp only [hword "inf" rfl, hword "infinity" rfl, Bool.or_self, Bool.false_eq_true, if_false]
  rw [unsignedDecimal?, decimalParts?_map_toLower hbase]
  rfl

theorem dropSuffix_append {digits suffix : List Char} (hdigits : 'n' ∉ digits)
    (hsuffix : ∀ c ∈ suffix, c = 'n') : dropSuffix (digits ++ suffix) = digits := by
  have hdrop : digits.reverse.dropWhile (· == 'n') = digits.reverse := by
    rw [List.dropWhile_eq_self_iff]
    intro hlt
    have hmem : digits.reverse[0] ∈ digits := List.mem_reverse.1 (List.getElem_mem hlt)
    simp only [beq_iff_eq]
    exact fun heq => hdigits (heq ▸ hmem)
  rw [dropSuffix, List.reverse_append, List.dropWhile_append_of_pos (by simpa using hsuffix), hdrop,
    List.reverse_reverse]

/-- **The value of a decimal numeral.** -/
theorem valueOf?_decimal (hbase : n.base = .decimal) {text : List Char} (big : Bool)
    (htext : text.filter (· != '_') = n.digits ++ if big then ['n'] else []) :
    valueOf? text = some (Binary64.ofDecimal false n.value 0) := by
  have hplain : plain text = n.digits.map Char.toLower ++ if big then ['n'] else [] := by
    rw [plain, htext, List.map_append]
    cases big <;> rfl
  -- no letter of a mark stands in the text
  have hmark : ∀ c ∈ plain text, c ≠ 'x' ∧ c ≠ 'o' ∧ c ≠ 'b' := by
    intro c hc
    rw [hplain, List.mem_append] at hc
    rcases hc with hc | hc
    · have hdigit := isDigit_of_mem hbase hc
      refine ⟨?_, ?_, ?_⟩ <;> (rintro rfl; exact absurd hdigit (by decide))
    · cases big <;> simp at hc
      subst hc
      decide
  have hsuffix : dropSuffix (plain text) = n.digits.map Char.toLower := by
    rw [hplain]
    refine dropSuffix_append (fun hmem => ?_) ?_
    · exact absurd (isDigit_of_mem hbase hmem) (by decide)
    · cases big <;> simp
  rw [← decimal?_map_toLower hbase, ← hsuffix, valueOf?]
  split
  · next h => exact absurd rfl (hmark 'x' (by simp [h])).1
  · next h => exact absurd rfl (hmark 'o' (by simp [h])).2.1
  · next h => exact absurd rfl (hmark 'b' (by simp [h])).2.2
  · rfl

end Numeral

/-! ### All texts that write a number -/

/-- The text writes the number: as a numeral in some base, or as a decimal numeral with the suffix
of a big integer, with separators anywhere. -/
inductive Spells (k : Nat) (text : String) : Prop
  | numeral (n : Numeral) {opening : List Char} (hopening : opening ∈ n.base.openings)
      (htext : text.toList.filter (· != '_') = opening ++ n.digits) (hvalue : n.value = k)
  | bigDecimal (n : Numeral) (hbase : n.base = .decimal)
      (htext : text.toList.filter (· != '_') = n.digits ++ ['n']) (hvalue : n.value = k)

/-- **All texts that write a number below `2 ^ 53` have this number as their integer.** -/
theorem integer?_of_spells {k : Nat} (hk : k < 2 ^ 53) {text : String} (h : Spells k text) :
    (value? text).bind Binary64.integer? = some (k : Int) := by
  cases h with
  | @numeral n opening hopening htext hvalue =>
      subst hvalue
      by_cases hbase : n.base = .decimal
      · rw [hbase] at hopening
        obtain rfl := List.mem_singleton.1 hopening
        rw [value?, Numeral.valueOf?_decimal hbase false (by simpa using htext), Option.bind_some,
          Binary64.integer?_ofDecimal hk]
      · have hfits : n.value < 2 ^ 63 := by omega
        rw [value?, Numeral.valueOf?_marked hbase hopening false (by simpa using htext),
          if_pos ⟨rfl, hfits⟩, Option.bind_some, Binary64.integer?_ofInt hk]
  | bigDecimal n hbase htext hvalue =>
      subst hvalue
      rw [value?, Numeral.valueOf?_decimal hbase true htext, Option.bind_some,
        Binary64.integer?_ofDecimal hk]

/-- A numeral for the greatest number below `2 ^ 53`, in both cases and with zeros in front. -/
def mixedCase : Numeral where
  base := .hexadecimal
  digits := "001fFffFffFFfFff".toList
  digits_ne_nil := by decide
  digitValue_lt := digitValue_lt_of_all (by decide)
  no_leading_zero := by decide

/-- The decimal numeral for the same number. -/
def sixteenDigits : Numeral where
  base := .decimal
  digits := "9007199254740991".toList
  digits_ne_nil := by decide
  digitValue_lt := digitValue_lt_of_all (by decide)
  no_leading_zero := by decide

theorem integer?_of_spells_mixedCase :
    Spells 9007199254740991 "_0_X001fF__ffFffFFfFff_" ∧
      Spells 9007199254740991 "9_007_199_254_740_991n" ∧
      (value? "_0_X001fF__ffFffFFfFff_").bind Binary64.integer? = some 9007199254740991 ∧
      (value? "9_007_199_254_740_991n").bind Binary64.integer? = some 9007199254740991 := by
  have hmarked : Spells 9007199254740991 "_0_X001fF__ffFffFFfFff_" :=
    @Spells.numeral _ _ mixedCase ['0', 'X'] (by decide) (by decide) (by decide)
  have hbig : Spells 9007199254740991 "9_007_199_254_740_991n" :=
    .bigDecimal sixteenDigits rfl (by decide) (by decide)
  exact ⟨hmarked, hbig, integer?_of_spells (by norm_num) hmarked,
    integer?_of_spells (by norm_num) hbig⟩

end SchemaScope.Literal
