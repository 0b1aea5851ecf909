/-
**Numbers are read back.**

The reader of numbers collects digits into a word and multiplies or divides by a power of ten.  This
module follows it over the texts that numbers are written as: an integer within the words is read as
itself, and the text of a double is read as a double, in whichever of the two forms it is written.
The double that is read may be a neighbour of the one that was written.

Main definitions:

* `Json.EndsValue` — what may stand after a value;
* `Json.IsPointed` — digits with a point in them, as doubles of moderate size are written;
* `Json.magnitudeText` — the text of a double without its sign.

Main results:

* `Json.readNumber_toDigits`, `Json.readNumber_negative` — an integer within the words is read back;
* `Json.readNumber_magnitudeText` — **the text of a double is read as a double**.
-/

import SchemaScope.Json.Printer
import SchemaScope.Proofs.Number.ShortestDecimal

set_option autoImplicit false

namespace SchemaScope.Json

/-- What may stand after a value: nothing, a comma or the end of a line. -/
def EndsValue (tail : List Char) : Prop := ∀ c ∈ tail.head?, c = ',' ∨ c = '\n'

/-- The characters are digits. -/
def AreDigits (text : List Char) : Prop := ∀ c ∈ text, c.isDigit = true

/-! ### Digits -/

theorem takeWhile_digits {digits tail : List Char} (hd : AreDigits digits)
    (ht : ∀ c ∈ tail.head?, c.isDigit = false) :
    (digits ++ tail).takeWhile Char.isDigit = digits := by
  rw [List.takeWhile_append_of_pos hd]
  cases tail with
  | nil => simp
  | cons c tail => simp [ht c rfl]

theorem le_ofDigitChars (digits : List Char) (n : Nat) : n ≤ Nat.ofDigitChars 10 digits n := by
  induction digits generalizing n with
  | nil => simp
  | cons c digits ih =>
      rw [Nat.ofDigitChars_cons]
      exact le_trans (by omega) (ih _)

/-- Digits stand for a number of at most their length. -/
theorem ofDigitChars_lt {digits : List Char} (hd : AreDigits digits) :
    Nat.ofDigitChars 10 digits 0 < 10 ^ digits.length := by
  suffices h : ∀ n, Nat.ofDigitChars 10 digits n < 10 ^ digits.length * (n + 1) by
    simpa using h 0
  induction digits with
  | nil => simp
  | cons c digits ih =>
      intro n
      have hc : c.toNat - '0'.toNat ≤ 9 := by
        have := hd c (by simp)
        simp only [Char.isDigit, Bool.and_eq_true, decide_eq_true_eq, ge_iff_le,
          UInt32.le_iff_toNat_le] at this
        have h9 : c.toNat ≤ 57 := this.2
        simp
        omega
      rw [Nat.ofDigitChars_cons]
      refine (ih (fun d hd' => hd d (by simp [hd'])) _).trans_le ?_
      rw [List.length_cons, pow_succ, mul_assoc]
      exact Nat.mul_le_mul_left _ (by omega)

/-- Nineteen digits fit a word. -/
theorem tenPow_le_maxWord {k : Nat} (hk : k ≤ 19) : 10 ^ k ≤ maxWord := by
  have hword : (10 : Nat) ^ 19 ≤ maxWord := by
    rw [maxWord, twoTo_eq]
    norm_num
  exact (Nat.pow_le_pow_right (by norm_num) hk).trans hword

/-- Digits that fit a word are read as the number they stand for. -/
theorem wholePart_eq (digits : List Char) (n : Nat)
    (h : Nat.ofDigitChars 10 digits n ≤ maxWord) :
    wholePart digits n = (Nat.ofDigitChars 10 digits n, 0) := by
  induction digits generalizing n with
  | nil => simp [wholePart]
  | cons c digits ih =>
      have hc : n * 10 + digitValue c = 10 * n + (c.toNat - '0'.toNat) := by
        rw [digitValue, mul_comm]
      rw [Nat.ofDigitChars_cons, ← hc] at h ⊢
      have := (le_ofDigitChars digits _).trans h
      rw [wholePart, if_neg (by omega), ih _ h]

/-- Digits after the point that fit a word go into the word, and each lowers the power of ten. -/
theorem fractionPart_eq (digits : List Char) (n : Nat) (power : Int)
    (h : Nat.ofDigitChars 10 digits n ≤ maxWord) :
    fractionPart digits n power = (Nat.ofDigitChars 10 digits n, power - digits.length) := by
  induction digits generalizing n power with
  | nil => simp [fractionPart]
  | cons c digits ih =>
      have hc : n * 10 + digitValue c = 10 * n + (c.toNat - '0'.toNat) := by
        rw [digitValue, mul_comm]
      rw [Nat.ofDigitChars_cons, ← hc] at h ⊢
      have := (le_ofDigitChars digits _).trans h
      rw [fractionPart, if_neg (by omega), ih _ _ h]
      simp only [List.length_cons, Prod.mk.injEq, true_and]
      push_cast
      ring

theorem exponentDigits_eq (digits : List Char) (n count : Nat)
    (h : Nat.ofDigitChars 10 digits n < 2 ^ 31) :
    exponentDigits digits n count = .inl (Nat.ofDigitChars 10 digits n) := by
  induction digits generalizing n count with
  | nil => simp [exponentDigits]
  | cons c digits ih =>
      have hc : n * 10 + digitValue c = 10 * n + (c.toNat - '0'.toNat) := by
        rw [digitValue, mul_comm]
      rw [Nat.ofDigitChars_cons, ← hc] at h ⊢
      have := (le_ofDigitChars digits _).trans_lt h
      rw [exponentDigits, twoTo_eq, if_neg (by omega), ih _ _ h]

/-! ### Reading -/

/-- A run of digits goes to the part of the reader that looks at what follows. -/
theorem readNumber_eq {digits tail : List Char} (hd : AreDigits digits) (hne : digits ≠ [])
    (hz : digits.head? = some '0' → digits = ['0'])
    (ht : ∀ c ∈ tail.head?, c.isDigit = false) (negative : Bool) (p : Position) :
    ∃ q, readNumber negative ⟨digits ++ tail, p⟩ = finishNumber negative digits ⟨tail, q⟩ := by
  obtain ⟨c, cs, rfl⟩ := List.exists_cons_of_ne_nil hne
  by_cases h0 : c = '0'
  · -- a zero at the front stands alone
    subst h0
    obtain rfl : cs = [] := by simpa using hz rfl
    refine ⟨p.advance '0', ?_⟩
    have : (tail.head?.any Char.isDigit) = false := by
      cases tail with
      | nil => rfl
      | cons d tail => simpa using ht d rfl
    simp [readNumber, Scan.next, this]
  · refine ⟨p.advanceText (c :: cs), ?_⟩
    have hc := hd c (by simp)
    have ht' := takeWhile_digits hd ht
    unfold readNumber
    split
    · next h => simp at h
    · next h =>
      simp only [List.cons_append, List.cons.injEq] at h
      exact absurd h.1 h0
    · next h =>
      simp only [List.cons_append, List.cons.injEq] at h
      rw [← h.1, if_pos hc]
      simp only [ht', Scan.skip]
      simp

theorem EndsValue.not_isDigit {tail : List Char} (h : EndsValue tail) :
    ∀ c ∈ tail.head?, c.isDigit = false := by
  intro c hc
  rcases h c hc with rfl | rfl <;> decide

/-- A number without point and exponent ends where its digits end. -/
theorem finishNumber_whole {tail : List Char} (ht : EndsValue tail) (negative : Bool)
    (digits : List Char) (q : Position) (h : Nat.ofDigitChars 10 digits 0 ≤ maxWord) :
    finishNumber negative digits ⟨tail, q⟩ =
      finishNumber.whole negative ⟨tail, q⟩ (Nat.ofDigitChars 10 digits 0) 0 := by
  unfold finishNumber
  rw [wholePart_eq digits 0 h]
  cases tail with
  | nil => rfl
  | cons c tail => rcases ht c rfl with rfl | rfl <;> rfl

theorem areDigits_toDigits (n : Nat) : AreDigits (Nat.toDigits 10 n) :=
  fun _ hc => Nat.isDigit_of_mem_toDigits (by norm_num) (by norm_num) hc

/-- Only zero is written with a zero in front. -/
theorem head?_toDigits (n : Nat) (h : (Nat.toDigits 10 n).head? = some '0') :
    Nat.toDigits 10 n = ['0'] := by
  have hn : n = 0 := by
    by_contra hn
    have hpos : 0 < n := Nat.pos_of_ne_zero hn
    clear hn
    induction n using Nat.strong_induction_on with
    | _ n ih =>
        by_cases hlt : n < 10
        · rw [Nat.toDigits_of_lt_base hlt] at h
          simp at h
          omega
        · rw [Nat.toDigits_of_base_le (by norm_num) (by omega)] at h
          have hne : Nat.toDigits 10 (n / 10) ≠ [] := Nat.toDigits_ne_nil
          rw [List.head?_append_of_ne_nil _ hne] at h
          exact ih (n / 10) (by omega) h (by omega)
  rw [hn, Nat.toDigits_zero]

/-- An integer within the words is read back. -/
theorem readNumber_toDigits {n : Nat} (hn : n ≤ maxWord) {tail : List Char} (ht : EndsValue tail)
    (p : Position) :
    ∃ q, readNumber false ⟨Nat.toDigits 10 n ++ tail, p⟩ = .ok (.integer n, ⟨tail, q⟩) := by
  obtain ⟨q, hq⟩ := readNumber_eq (areDigits_toDigits n) Nat.toDigits_ne_nil (head?_toDigits n)
    ht.not_isDigit false p
  refine ⟨q, ?_⟩
  rw [hq, finishNumber_whole ht _ _ _ (by simpa using hn)]
  simp [finishNumber.whole]

/-- A negative integer within the words is read back. -/
theorem readNumber_negative {n : Nat} (hn : 0 < n) (hn' : n ≤ 2 ^ 63) {tail : List Char}
    (ht : EndsValue tail) (p : Position) :
    ∃ q, readNumber true ⟨Nat.toDigits 10 n ++ tail, p⟩ = .ok (.integer (-(n : Int)), ⟨tail, q⟩) := by
  obtain ⟨q, hq⟩ := readNumber_eq (areDigits_toDigits n) Nat.toDigits_ne_nil (head?_toDigits n)
    ht.not_isDigit true p
  refine ⟨q, ?_⟩
  have hw : n ≤ maxWord := hn'.trans (by rw [maxWord, twoTo_eq]; norm_num)
  rw [hq, finishNumber_whole ht _ _ _ (by simpa using hw)]
  have h0 : n ≠ 0 := hn.ne'
  simpa [finishNumber.whole, h0, twoTo_eq] using hn'

/-! ### Doubles -/

/-- Dividing by a power of ten never fails. -/
theorem combine?_of_neg (bound : Nat) (x : Binary64) {power : Int} (h : power < 0) :
    ∃ y, combine? bound x power = some y := by
  induction bound generalizing x power with
  | zero => exact ⟨x, rfl⟩
  | succ bound ih =>
      rw [combine?]
      split
      · rw [if_neg (by omega)]
        exact ⟨_, rfl⟩
      · split
        · exact ⟨x, rfl⟩
        · rw [if_neg (by omega)]
          exact ih _ (by omega)

/-- Multiplying by a power of ten fails only if the product is an infinity. -/
theorem combine?_of_nonneg {bound : Nat} {x : Binary64} {power : Nat} (hp : power ≤ 308)
    (h : (x.mul (powerOfTen power)).isInfinite = false) :
    combine? (bound + 1) x power = some (x.mul (powerOfTen power)) := by
  rw [combine?, if_pos (by simpa using hp), if_pos (by omega)]
  simp [h]

theorem doubleFrom_of_combine? {n : Nat} {power : Int} {y : Binary64}
    (h : combine? 8 (Binary64.ofNat n) power = some y) (negative : Bool) (s : Scan) :
    ∃ x, doubleFrom negative n power s = .ok (.double x, s) := by
  unfold doubleFrom
  rw [h]
  exact ⟨_, rfl⟩

theorem fractionPart_le (digits : List Char) (n : Nat) (power : Int) :
    (fractionPart digits n power).2 ≤ power := by
  induction digits generalizing n power with
  | nil => exact le_rfl
  | cons c digits ih =>
      rw [fractionPart]
      split
      · exact le_rfl
      · exact (ih _ _).trans (by omega)

/-- The first digit after the point lowers the power of ten if the digits before it are few. -/
theorem fractionPart_neg {digits : List Char} (hd : AreDigits digits) (hne : digits ≠ []) {n : Nat}
    (hn : n < 10 ^ 16) : (fractionPart digits n 0).2 < 0 := by
  obtain ⟨c, cs, rfl⟩ := List.exists_cons_of_ne_nil hne
  have hc : digitValue c < 10 := by
    have hone : AreDigits [c] := fun d h => hd d (by simp_all)
    have := ofDigitChars_lt hone
    simpa [Nat.ofDigitChars_cons, digitValue] using this
  have hw : (10 : Nat) ^ 17 ≤ maxWord := tenPow_le_maxWord (by norm_num)
  rw [fractionPart, if_neg (by omega)]
  exact (fractionPart_le _ _ _).trans_lt (by omega)

/-- Digits with a point in them are read as a double. -/
theorem readNumber_point {whole fraction tail : List Char} (hw : AreDigits whole)
    (hwne : whole ≠ []) (hz : whole.head? = some '0' → whole = ['0']) (hlen : whole.length ≤ 16)
    (hf : AreDigits fraction) (hfne : fraction ≠ []) (ht : EndsValue tail) (negative : Bool)
    (p : Position) :
    ∃ x q, readNumber negative ⟨whole ++ '.' :: (fraction ++ tail), p⟩ =
      .ok (.double x, ⟨tail, q⟩) := by
  have hn : Nat.ofDigitChars 10 whole 0 < 10 ^ 16 :=
    (ofDigitChars_lt hw).trans_le (Nat.pow_le_pow_right (by norm_num) hlen)
  have hword : (10 : Nat) ^ 16 ≤ maxWord := tenPow_le_maxWord (by norm_num)
  have hdot : ∀ c ∈ ('.' :: (fraction ++ tail)).head?, c.isDigit = false := by simp
  obtain ⟨q, hq⟩ := readNumber_eq hw hwne hz hdot negative p
  have htake := takeWhile_digits hf ht.not_isDigit
  have hmark : tail.head?.any isExponentMark = false := by
    cases tail with
    | nil => rfl
    | cons c tail => rcases ht c rfl with rfl | rfl <;> rfl
  obtain ⟨y, hy⟩ := combine?_of_neg 8
    (Binary64.ofNat (fractionPart fraction (Nat.ofDigitChars 10 whole 0) 0).1)
    (fractionPart_neg hf hfne hn)
  rw [hq, finishNumber, wholePart_eq whole 0 (by omega)]
  simp only [Scan.next, readFraction, htake, List.isEmpty_eq_false_iff.2 hfne, Scan.skip,
    List.drop_left, List.take_left, hmark, Bool.false_eq_true, if_false]
  obtain ⟨x, hx⟩ := doubleFrom_of_combine? hy negative ⟨tail, _⟩
  exact ⟨x, _, hx⟩

/-- An exponent with its sign is added to the power of ten. -/
theorem readExponent_eq {digits tail : List Char} (hd : AreDigits digits) (hne : digits ≠ [])
    (hsmall : Nat.ofDigitChars 10 digits 0 < 2 ^ 31) (ht : EndsValue tail) (negative below : Bool)
    (n : Nat) (power : Int) (p : Position) :
    ∃ q, readExponent negative n power ⟨(if below then '-' else '+') :: (digits ++ tail), p⟩ =
      doubleFrom negative n (if below then power - Nat.ofDigitChars 10 digits 0
        else power + Nat.ofDigitChars 10 digits 0) ⟨tail, q⟩ := by
  have htake := takeWhile_digits hd ht.not_isDigit
  obtain ⟨c, cs, rfl⟩ := List.exists_cons_of_ne_nil hne
  have hc : c.isDigit = true := hd c (by simp)
  have he := exponentDigits_eq (c :: cs) 0 0 hsmall
  refine ⟨(p.advance (if below then '-' else '+')).advanceText (c :: cs), ?_⟩
  simp only [List.cons_append] at htake
  cases below <;> simp [readExponent, Scan.next, hc, htake, he, Scan.skip]

/-- Behind a digit, further digits after a point lower the power of ten by one each, and the mark of
an exponent follows.  Eighteen digits fit a word, so none of them is dropped. -/
theorem exists_finishNumber_eq_readExponent {c : Char} {cs : List Char}
    (hc : AreDigits (c :: cs)) (hlen : cs.length ≤ 17) (rest : List Char) (negative : Bool)
    (p : Position) :
    ∃ q, finishNumber negative [c] ⟨(if cs = [] then [] else '.' :: cs) ++ 'e' :: rest, p⟩ =
      readExponent negative (Nat.ofDigitChars 10 (c :: cs) 0) (-(cs.length : Int)) ⟨rest, q⟩ := by
  have hword : Nat.ofDigitChars 10 (c :: cs) 0 ≤ maxWord :=
    (ofDigitChars_lt hc).le.trans (tenPow_le_maxWord (by simp only [List.length_cons]; omega))
  have hsplit : Nat.ofDigitChars 10 cs (Nat.ofDigitChars 10 [c] 0) =
      Nat.ofDigitChars 10 (c :: cs) 0 := by
    rw [← Nat.ofDigitChars_append]
    rfl
  have hfirst : Nat.ofDigitChars 10 [c] 0 ≤ maxWord := by
    rw [← hsplit] at hword
    exact (le_ofDigitChars cs _).trans hword
  rw [finishNumber, wholePart_eq [c] 0 hfirst]
  by_cases hnil : cs = []
  · subst hnil
    exact ⟨p.advance 'e', by simp [isExponentMark, Scan.next]⟩
  · refine ⟨((p.advance '.').advanceText cs).advance 'e', ?_⟩
    have hmark : ∀ d ∈ ('e' :: rest).head?, d.isDigit = false := by simp
    have htake := takeWhile_digits (fun d hd => hc d (List.mem_cons_of_mem c hd)) hmark
    have hfraction := fractionPart_eq cs (Nat.ofDigitChars 10 [c] 0) 0 (hsplit ▸ hword)
    rw [hsplit] at hfraction
    simp only [hnil, if_false, List.cons_append, Scan.next, readFraction, htake,
      List.isEmpty_eq_false_iff.2 hnil, Scan.skip, List.drop_left, List.take_left,
      Bool.false_eq_true]
    simp [hfraction, isExponentMark]

/-- A digit, further digits after a point if there are any, and an exponent are read as a double if
the power of ten does not make it overflow. -/
theorem readNumber_scientific {c : Char} {cs digits tail : List Char} (hc : AreDigits (c :: cs))
    (hlen : cs.length ≤ 17) (hd : AreDigits digits) (hne : digits ≠ [])
    (hsmall : Nat.ofDigitChars 10 digits 0 < 2 ^ 31) (ht : EndsValue tail) (negative below : Bool)
    {y : Binary64}
    (hy : combine? 8 (Binary64.ofNat (Nat.ofDigitChars 10 (c :: cs) 0))
      (if below then -(cs.length : Int) - Nat.ofDigitChars 10 digits 0
        else -(cs.length : Int) + Nat.ofDigitChars 10 digits 0) = some y) (p : Position) :
    ∃ x q, readNumber negative ⟨c :: ((if cs = [] then [] else '.' :: cs) ++
      'e' :: (if below then '-' else '+') :: (digits ++ tail)), p⟩ = .ok (.double x, ⟨tail, q⟩) := by
  have hone : AreDigits [c] := fun d h => hc d (by simp_all)
  have hmark : ∀ d ∈ ((if cs = [] then [] else '.' :: cs) ++
      'e' :: (if below then '-' else '+') :: (digits ++ tail)).head?, d.isDigit = false := by
    split <;> simp
  obtain ⟨q, hq⟩ := readNumber_eq hone (by simp) (by simp) hmark negative p
  obtain ⟨q', hq'⟩ := exists_finishNumber_eq_readExponent hc hlen
    ((if below then '-' else '+') :: (digits ++ tail)) negative q
  obtain ⟨q'', hq''⟩ := readExponent_eq hd hne hsmall ht negative below
    (Nat.ofDigitChars 10 (c :: cs) 0) (-(cs.length : Int)) q'
  obtain ⟨x, hx⟩ := doubleFrom_of_combine? hy negative ⟨tail, q''⟩
  rw [List.singleton_append] at hq
  exact ⟨x, q'', by rw [hq, hq', hq'', hx]⟩

/-! ### The two forms of a double -/

theorem toList_toString (n : Nat) : (toString n).toList = Nat.toDigits 10 n := by
  simp

theorem length_toString (n : Nat) : (toString n).length = (Nat.toDigits 10 n).length := by
  rw [← toList_toString, String.length_toList]

theorem areDigits_replicate (n : Nat) : AreDigits (List.replicate n '0') := by
  intro c hc
  rw [(List.mem_replicate.1 hc).2]
  rfl

theorem AreDigits.append {a b : List Char} (ha : AreDigits a) (hb : AreDigits b) :
    AreDigits (a ++ b) := by
  intro c hc
  rcases List.mem_append.1 hc with h | h
  · exact ha c h
  · exact hb c h

/-- Digits with a point in them, as doubles of moderate size are written: no zero too many in front,
and at most sixteen digits before the point. -/
def IsPointed (text : List Char) : Prop :=
  ∃ whole fraction, text = whole ++ '.' :: fraction ∧ AreDigits whole ∧ whole ≠ [] ∧
    (whole.head? = some '0' → whole = ['0']) ∧ whole.length ≤ 16 ∧ AreDigits fraction ∧ fraction ≠ []

/-- Below one there are zeros behind the point, and then the digits. -/
theorem isPointed_below_one (n zeros : Nat) :
    IsPointed ('0' :: '.' :: (List.replicate zeros '0' ++ Nat.toDigits 10 n)) := by
  have hne : Nat.toDigits 10 n ≠ [] := Nat.toDigits_ne_nil
  refine ⟨['0'], List.replicate zeros '0' ++ Nat.toDigits 10 n, rfl, by simp [AreDigits], by simp,
    by simp, by simp, (areDigits_replicate _).append (areDigits_toDigits n), by simp [hne]⟩

/-- In an integer there are zeros behind the digits, up to the point. -/
theorem isPointed_integer (n zeros : Nat) (hlen : (Nat.toDigits 10 n).length + zeros ≤ 16)
    (h0 : n = 0 → zeros = 0) :
    IsPointed (Nat.toDigits 10 n ++ List.replicate zeros '0' ++ ['.', '0']) := by
  have hne : Nat.toDigits 10 n ≠ [] := Nat.toDigits_ne_nil
  refine ⟨Nat.toDigits 10 n ++ List.replicate zeros '0', ['0'], rfl,
    (areDigits_toDigits n).append (areDigits_replicate _), by simp [hne], ?_, by simpa using hlen,
    by simp [AreDigits], by simp⟩
  intro hz
  rw [List.head?_append_of_ne_nil _ hne] at hz
  have hdigits := head?_toDigits n hz
  have hn : n = 0 := by
    have hvalue := congrArg (fun cs => Nat.ofDigitChars 10 cs 0) hdigits
    simpa [Nat.ofDigitChars_cons] using hvalue
  simp [h0 hn, hdigits]

/-- Otherwise the point stands among the digits. -/
theorem isPointed_among (n count : Nat) (hpos : 0 < count) (hle : count ≤ 16)
    (hlt : count < (Nat.toDigits 10 n).length) :
    IsPointed ((Nat.toDigits 10 n).take count ++ '.' :: (Nat.toDigits 10 n).drop count) := by
  have hd := areDigits_toDigits n
  refine ⟨_, _, rfl, fun c hc => hd c (List.mem_of_mem_take hc), ?_, ?_, ?_,
    fun c hc => hd c (List.mem_of_mem_drop hc), ?_⟩
  · have hne : Nat.toDigits 10 n ≠ [] := Nat.toDigits_ne_nil
    simp [hne, hpos.ne']
  · intro hz
    rw [List.head?_take, if_neg hpos.ne'] at hz
    rw [head?_toDigits n hz]
    exact List.take_of_length_le (Nat.succ_le_of_lt hpos)
  · rw [List.length_take]
    omega
  · simp only [ne_eq, List.drop_eq_nil_iff]
    omega

/-- The positional form is digits with a point in them. -/
theorem isPointed_positional {n : Nat} {lead : Int} (hlead : lead ≤ 15)
    (h0 : n = 0 → lead = 0) : IsPointed (DoubleFormat.positional (toString n) lead).toList := by
  have hzero : (Nat.toDigits 10 0).length = 1 := rfl
  unfold DoubleFormat.positional
  split
  · simpa [DoubleFormat.zeros] using isPointed_below_one n (-lead - 1).toNat
  · next hneg =>
    dsimp only
    rw [length_toString]
    split
    · next hsize =>
      have hnone : n = 0 → lead.toNat + 1 - (Nat.toDigits 10 n).length = 0 := by
        intro hn
        rw [h0 hn, hn, hzero]
        rfl
      simpa [DoubleFormat.zeros] using isPointed_integer n _ (by omega) hnone
    · next hsize =>
      simpa using isPointed_among n (lead.toNat + 1) (by omega) (by omega) (by omega)

/-- The other form is a digit, further digits after a point, and a signed exponent. -/
theorem scientific_eq {n : Nat} {c : Char} {cs : List Char} (h : Nat.toDigits 10 n = c :: cs)
    (lead : Int) :
    (DoubleFormat.scientific (toString n) lead).toList =
      c :: ((if cs = [] then [] else '.' :: cs) ++
        'e' :: (if decide (lead < 0) then '-' else '+') :: Nat.toDigits 10 lead.natAbs) := by
  unfold DoubleFormat.scientific
  rw [toList_toString, h]
  cases cs with
  | nil => by_cases hl : lead < 0 <;> simp [hl]
  | cons d cs => by_cases hl : lead < 0 <;> simp [hl]

/-- The text of a double without its sign. -/
def magnitudeText (m : Nat) (e : Int) : List Char := (doubleFormat.write (.finite false m e)).toList

theorem write_finite (negative : Bool) (m : Nat) (e : Int) :
    (doubleFormat.write (.finite negative m e)).toList =
      (if negative then ['-'] else []) ++ magnitudeText m e := by
  unfold magnitudeText DoubleFormat.write
  cases negative <;> by_cases hm : m = 0 <;> simp [hm]

/-- The form in which a double other than zero is written depends on the place of its first
digit. -/
theorem magnitudeText_of_decimal {m n : Nat} {e power : Int} (hm : m ≠ 0)
    (h : Shortest.decimal m e = (n, power)) :
    magnitudeText m e = (if doubleFormat.leastPositional ≤ power + (toString n).length - 1 ∧
        power + (toString n).length - 1 ≤ doubleFormat.greatestPositional then
      DoubleFormat.positional (toString n) (power + (toString n).length - 1)
    else DoubleFormat.scientific (toString n) (power + (toString n).length - 1)).toList := by
  simp only [magnitudeText, DoubleFormat.write, h, beq_iff_eq, hm, if_false, Bool.false_eq_true,
    String.empty_append]

/-- A double is written as digits with a point in them, or with an exponent. -/
theorem magnitudeText_cases (m : Nat) (e : Int) :
    IsPointed (magnitudeText m e) ∨
      ∃ n power c cs, 0 < m ∧ 0 < n ∧ Shortest.decimal m e = (n, power) ∧
        Nat.toDigits 10 n = c :: cs ∧
        magnitudeText m e = c :: ((if cs = [] then [] else '.' :: cs) ++
          'e' :: (if decide (power + cs.length < 0) then '-' else '+') ::
            Nat.toDigits 10 (power + cs.length).natAbs) := by
  by_cases hm : m = 0
  · left
    exact ⟨['0'], ['0'], by simp [magnitudeText, DoubleFormat.write, hm], by simp [AreDigits],
      by simp, by simp, by simp, by simp [AreDigits], by simp⟩
  · obtain ⟨n, power, hdec⟩ : ∃ n power, Shortest.decimal m e = (n, power) := ⟨_, _, rfl⟩
    obtain ⟨c, cs, hcs⟩ := List.exists_cons_of_ne_nil (Nat.toDigits_ne_nil : Nat.toDigits 10 n ≠ [])
    have hlead : power + ((toString n).length : Int) - 1 = power + cs.length := by
      rw [length_toString, hcs]
      push_cast [List.length_cons]
      ring
    have hm' : 0 < m := Nat.pos_of_ne_zero hm
    have h0 : n = 0 → power + cs.length = 0 := by
      intro hn
      rw [hn, Nat.toDigits_zero] at hcs
      rcases Shortest.decimal_bounds hm' e with h | ⟨h, -⟩
      · rw [hdec] at h
        rw [(Prod.mk.inj h).2, ← (List.cons.inj hcs).2]
        rfl
      · rw [hdec] at h
        omega
    rw [magnitudeText_of_decimal hm hdec, hlead]
    by_cases hpos : doubleFormat.leastPositional ≤ power + cs.length ∧
        power + cs.length ≤ doubleFormat.greatestPositional
    · rw [if_pos hpos]
      exact .inl (isPointed_positional hpos.2 h0)
    · rw [if_neg hpos]
      refine .inr ⟨n, power, c, cs, hm', Nat.pos_of_ne_zero fun hn => hpos ?_, hdec, hcs,
        scientific_eq hcs _⟩
      rw [h0 hn]
      decide

/-- The shortest digits of a double are at most eighteen. -/
theorem length_toDigits_decimal {m n : Nat} {e power : Int} (hm : 0 < m)
    (hdec : Shortest.decimal m e = (n, power)) : (Nat.toDigits 10 n).length ≤ 18 := by
  have hle : n ≤ 10 ^ 17 := by
    rcases Shortest.decimal_bounds hm e with h | ⟨-, h, -⟩
    · rw [hdec] at h
      simp only [Prod.mk.injEq] at h
      omega
    · rwa [hdec] at h
  exact (Nat.length_toDigits_le_iff (by norm_num) (by norm_num)).2 (by omega)

/-- The power of ten behind the shortest digits of a double does not make them overflow. -/
theorem exists_combine?_decimal {m n : Nat} {e power : Int} (hm : 0 < m)
    (hr : (Binary64.finite false m e).InRange) (hdec : Shortest.decimal m e = (n, power)) :
    power ≤ 308 ∧ ∃ y, combine? 8 (Binary64.ofNat n) power = some y := by
  rcases lt_or_ge power 0 with hneg | hpos
  · exact ⟨by omega, combine?_of_neg 8 _ hneg⟩
  · lift power to ℕ using hpos
    obtain ⟨hx, hp⟩ := Shortest.inRange_mul_powerOfTen hm hr.1 hr.2.2 hdec
    exact ⟨by exact_mod_cast hp, _, combine?_of_nonneg hp hx.isInfinite_eq⟩

/-- The exponent that is read back makes up for the digits after the point. -/
theorem power_of_exponent (power : Int) (count : Nat) :
    (if decide (power + count < 0) then
        -(count : Int) - Nat.ofDigitChars 10 (Nat.toDigits 10 (power + count).natAbs) 0
      else -(count : Int) + Nat.ofDigitChars 10 (Nat.toDigits 10 (power + count).natAbs) 0) =
      power := by
  rw [Nat.ofDigitChars_ten_toDigits]
  by_cases h : power + count < 0
  · simp only [h, decide_true, if_true]
    omega
  · simp only [h, decide_false, Bool.false_eq_true, if_false]
    omega

/-- **The text of a double is read as a double.** -/
theorem readNumber_magnitudeText {m : Nat} {e : Int} (hr : (Binary64.finite false m e).InRange)
    {tail : List Char} (ht : EndsValue tail) (negative : Bool) (p : Position) :
    ∃ x q, readNumber negative ⟨magnitudeText m e ++ tail, p⟩ = .ok (.double x, ⟨tail, q⟩) := by
  rcases magnitudeText_cases m e with ⟨whole, fraction, h, hw, hwne, hz, hlen, hf, hfne⟩ |
    ⟨n, power, c, cs, hm, hn, hdec, hcs, h⟩
  · rw [h, List.append_assoc, List.cons_append]
    exact readNumber_point hw hwne hz hlen hf hfne ht negative p
  · have hdigits : AreDigits (c :: cs) := hcs ▸ areDigits_toDigits n
    have hlen := length_toDigits_decimal hm hdec
    rw [hcs, List.length_cons] at hlen
    obtain ⟨hup, y, hy⟩ := exists_combine?_decimal hm hr hdec
    have hlow := Shortest.le_decimal m e
    rw [hdec] at hlow
    simp only at hlow
    have hvalue : Nat.ofDigitChars 10 (c :: cs) 0 = n := by
      rw [← hcs, Nat.ofDigitChars_ten_toDigits]
    have hsmall : Nat.ofDigitChars 10 (Nat.toDigits 10 (power + cs.length).natAbs) 0 < 2 ^ 31 := by
      rw [Nat.ofDigitChars_ten_toDigits]
      omega
    have hread := readNumber_scientific hdigits (by omega)
      (areDigits_toDigits (power + cs.length).natAbs) Nat.toDigits_ne_nil hsmall ht negative
      (decide (power + cs.length < 0)) (by rw [hvalue, power_of_exponent]; exact hy) p
    rw [h]
    simpa only [List.cons_append, List.append_assoc] using hread

/-- The text of a double begins with a digit, and holds neither quotes nor backslashes nor line
ends. -/
theorem magnitudeText_chars (m : Nat) (e : Int) :
    (∃ c cs, magnitudeText m e = c :: cs ∧ c.isDigit = true) ∧
      ∀ c ∈ magnitudeText m e, c.isDigit = true ∨ c ∈ ['.', 'e', '-', '+'] := by
  rcases magnitudeText_cases m e with ⟨whole, fraction, h, hw, hwne, -, -, hf, -⟩ |
    ⟨n, power, c, cs, -, -, -, hcs, h⟩
  · rw [h]
    constructor
    · obtain ⟨c, cs, rfl⟩ := List.exists_cons_of_ne_nil hwne
      exact ⟨c, cs ++ '.' :: fraction, rfl, hw c (by simp)⟩
    · intro d hd
      rcases List.mem_append.1 hd with h' | h'
      · exact .inl (hw d h')
      · rcases List.mem_cons.1 h' with rfl | h'
        · exact .inr (by simp)
        · exact .inl (hf d h')
  · have hdig : AreDigits (c :: cs) := hcs ▸ areDigits_toDigits n
    have hexp := areDigits_toDigits (power + cs.length).natAbs
    rw [h]
    refine ⟨⟨c, _, rfl, hdig c (by simp)⟩, ?_⟩
    intro d hd
    simp only [List.mem_cons, List.mem_append] at hd
    rcases hd with rfl | hd | rfl | rfl | hd
    · exact .inl (hdig d (by simp))
    · split at hd
      · simp at hd
      · rcases List.mem_cons.1 hd with rfl | hd
        · exact .inr (by simp)
        · exact .inl (hdig d (by simp [hd]))
    · exact .inr (by simp)
    · split <;> exact .inr (by simp)
    · exact .inl (hexp d hd)

end SchemaScope.Json
