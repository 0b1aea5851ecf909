/-
**Bounds of the shortest decimal.**

The shortest decimal of a double lies in the interval of the reals that round to the double, and has
at most seventeen digits.  Reading a decimal back multiplies its digits, as a double, by a power of
ten, as a double; three roundings are involved, and near the greatest double their errors could add
up to an infinity.  They do not: this is shown by a bound for all doubles but the last few, and by
computing for those.

Main results:

* `Shortest.decimal_bounds` — the digits and the power of ten of the shortest decimal;
* `Shortest.inRange_mul_powerOfTen` — **the shortest decimal of a double does not overflow** when its
  digits are multiplied by its power of ten.
-/

import SchemaScope.Number.Shortest
import SchemaScope.Json.Reader
import SchemaScope.Proofs.Number.Rounding

set_option autoImplicit false

namespace SchemaScope.Shortest

open Binary64

/-! ### The interval -/

theorem interval_denominator_pos (m : Nat) (e : Int) : 0 < (interval m e).denominator :=
  ratio_pos 1 (e - 2)

/-- The upper end lies half a unit above the double. -/
theorem interval_high (m : Nat) (e : Int) :
    ((interval m e).high : ℚ) / (interval m e).denominator = m * 2 ^ e + 2 ^ (e - 1) := by
  have h := ratio_div 1 (e - 2)
  have he : (2 : ℚ) ^ e = 4 * 2 ^ (e - 2) := by
    rw [zpow_sub₀ (by norm_num)]
    norm_num
    ring
  have he' : (2 : ℚ) ^ (e - 1) = 2 * 2 ^ (e - 2) := by
    rw [zpow_sub₀ (by norm_num), zpow_sub₀ (by norm_num)]
    norm_num
    ring
  simp only [interval, Nat.cast_mul, Nat.cast_add, Nat.cast_ofNat]
  rw [mul_div_assoc, h, he, he']
  push_cast
  ring

theorem interval_low_pos {m : Nat} (hm : 0 < m) (e : Int) : 0 < (interval m e).low := by
  have hf : 0 < (ratio 1 (e - 2)).1 := by
    unfold ratio
    split
    · exact Nat.mul_pos one_pos (twoTo_pos _)
    · exact one_pos
  simp only [interval]
  refine Nat.mul_pos ?_ hf
  split <;> omega

/-! ### Units -/

theorem inUnits_denominator_pos {i : Interval} (h : 0 < i.denominator) (k : Int) :
    0 < (i.inUnits k).denominator := by
  unfold Interval.inUnits
  split
  · exact Nat.mul_pos h (tenTo_pos _)
  · exact h

/-- In units of a power of ten every number is divided by that power. -/
theorem div_inUnits (i : Interval) (k : Int) :
    ((i.inUnits k).value : ℚ) / (i.inUnits k).denominator = i.value / i.denominator / 10 ^ k ∧
      ((i.inUnits k).high : ℚ) / (i.inUnits k).denominator = i.high / i.denominator / 10 ^ k := by
  unfold Interval.inUnits
  split
  · next h =>
    lift k to ℕ using h
    simp [tenTo_eq, div_div]
  · next h =>
    obtain ⟨j, rfl⟩ : ∃ j : ℕ, k = -j := ⟨(-k).toNat, by omega⟩
    simp only [tenTo_eq, Int.neg_neg, Int.toNat_natCast, Nat.cast_mul, Nat.cast_pow, Nat.cast_ofNat,
      zpow_neg, zpow_natCast, div_inv_eq_mul]
    constructor <;> ring

theorem inUnits_low_pos {i : Interval} (h : 0 < i.low) (k : Int) : 0 < (i.inUnits k).low := by
  unfold Interval.inUnits
  split
  · exact h
  · exact Nat.mul_pos h (tenTo_pos _)

/-- What is found lies in the interval, and is at most one unit above the value. -/
theorem candidate?_bounds {i : Interval} {c : Nat} (hd : 0 < i.denominator) (hl : 0 < i.low)
    (h : i.candidate? = some c) :
    0 < c ∧ c ≤ i.value / i.denominator + 1 ∧ (c : ℚ) ≤ i.high / i.denominator := by
  have hc : (c = i.value / i.denominator ∨ c = i.value / i.denominator + 1) ∧ i.holds c := by
    unfold Interval.candidate? at h
    dsimp only at h
    -- of the two neighbours of the value, those in the interval are considered
    split at h
    · split at h <;> cases h <;> simp_all
    · cases h; simp_all
    · cases h; simp_all
    · cases h
  obtain ⟨hc, hh⟩ := hc
  have hb : i.low ≤ c * i.denominator ∧ c * i.denominator ≤ i.high := by
    unfold Interval.holds at hh
    dsimp only at hh
    split at hh <;> simp only [Bool.and_eq_true, decide_eq_true_eq] at hh <;> omega
  refine ⟨Nat.pos_of_ne_zero ?_, by omega, ?_⟩
  · rintro rfl
    omega
  · have hd' : (0 : ℚ) < i.denominator := by exact_mod_cast hd
    rw [le_div_iff₀ hd']
    exact_mod_cast hb.2

/-! ### The first digit -/

/-- A quotient is less than the power of ten after that of its first digit. -/
theorem div_lt_leadingPower {num den : Nat} (hd : 0 < den) :
    (num : ℚ) / den < 10 ^ (leadingPower num den + 1) := by
  have hd' : (0 : ℚ) < den := by exact_mod_cast hd
  unfold leadingPower
  split
  · -- at least one: the whole part has as many digits as the power says
    next h =>
    set len := (Nat.toDigits 10 (num / den)).length with hlen
    have hpos : 0 < len := Nat.length_toDigits_pos
    have hlt : num / den < 10 ^ len :=
      (Nat.length_toDigits_le_iff (by norm_num) hpos).1 (le_of_eq hlen.symm)
    rw [show ((len : ℤ) - 1 + 1) = (len : ℤ) by ring, zpow_natCast, div_lt_iff₀ hd']
    have : num < 10 ^ len * den := by
      rw [mul_comm]
      exact (Nat.div_lt_iff_lt_mul hd).1 hlt |>.trans_eq (mul_comm _ _)
    exact_mod_cast this
  · next h =>
    split
    · next j hj =>
      obtain ⟨-, -, hbefore⟩ := List.find?_range_eq_some.1 hj
      -- no smaller power reaches the denominator
      have hlt : num * 10 ^ j < den := by
        cases j with
        | zero => omega
        | succ i =>
            have := hbefore i (Nat.lt_succ_self i)
            rwa [Bool.not_eq_true', decide_eq_false_iff_not, not_le, tenTo_eq] at this
      rw [show (-((j : ℤ) + 1) + 1) = -(j : ℤ) by ring, zpow_neg, zpow_natCast, div_lt_iff₀ hd',
        ← div_eq_inv_mul, lt_div_iff₀ (by positivity)]
      exact_mod_cast hlt
    · rw [div_lt_iff₀ hd']
      have : (num : ℚ) < den := by exact_mod_cast not_le.1 h
      norm_num
      linarith

/-! ### The decimal -/

/-- Dropping zeros keeps the value. -/
theorem trim_spec (bound : Nat) {digits : Nat} (power : Int) (hpos : 0 < digits) :
    0 < (trim bound digits power).1 ∧ (trim bound digits power).1 ≤ digits ∧
      ((trim bound digits power).1 : ℚ) * 10 ^ (trim bound digits power).2 =
        digits * 10 ^ power := by
  induction bound generalizing digits power with
  | zero => exact ⟨hpos, le_rfl, rfl⟩
  | succ bound ih =>
      rw [trim]
      split
      · next h =>
        simp only [Bool.and_eq_true, beq_iff_eq, decide_eq_true_eq] at h
        obtain ⟨h₁, h₂, h₃⟩ := ih (power + 1) (Nat.div_pos (by omega) (by norm_num) : 0 < digits / 10)
        refine ⟨h₁, by omega, ?_⟩
        rw [h₃, zpow_add₀ (by norm_num)]
        have : (digits : ℚ) = (digits / 10 : ℕ) * 10 := by
          exact_mod_cast (Nat.div_mul_cancel (Nat.dvd_of_mod_eq_zero h.1)).symm
        rw [this]
        norm_num
        ring
      · exact ⟨hpos, le_rfl, rfl⟩

/-- The shortest decimal has at most seventeen digits, and lies below the upper end of the
interval.  That a decimal is always found is not needed here. -/
theorem decimal_bounds {m : Nat} (hm : 0 < m) (e : Int) :
    decimal m e = (0, 0) ∨ (0 < (decimal m e).1 ∧ (decimal m e).1 ≤ 10 ^ 17 ∧
      ((decimal m e).1 : ℚ) * 10 ^ (decimal m e).2 ≤ m * 2 ^ e + 2 ^ (e - 1)) := by
  unfold decimal
  dsimp only
  split
  · next c k hfound =>
    right
    obtain ⟨n, hn, hc⟩ := List.exists_of_findSome?_eq_some hfound
    obtain ⟨c', hc', heq⟩ := Option.map_eq_some_iff.1 hc
    simp only [Prod.mk.injEq] at heq
    obtain ⟨rfl, rfl⟩ := heq
    set i := interval m e with hi
    set lead := leadingPower i.value i.denominator
    have hd : 0 < (i.inUnits (lead - n)).denominator :=
      inUnits_denominator_pos (interval_denominator_pos m e) _
    have hl : 0 < (i.inUnits (lead - n)).low := inUnits_low_pos (interval_low_pos hm e) _
    obtain ⟨hpos, hle, hhigh⟩ := candidate?_bounds hd hl hc'
    obtain ⟨hv, hh⟩ := div_inUnits i (lead - n)
    obtain ⟨h₁, h₂, h₃⟩ := trim_spec 20 (lead - n) hpos
    refine ⟨h₁, h₂.trans (hle.trans ?_), ?_⟩
    · -- in units of the last digit the value is less than a power of ten
      have hlt : ((i.inUnits (lead - n)).value : ℚ) / (i.inUnits (lead - n)).denominator <
          10 ^ (n + 1) := by
        rw [hv, div_lt_iff₀ (by positivity), ← zpow_natCast, ← zpow_add₀ (by norm_num)]
        refine (div_lt_leadingPower (interval_denominator_pos m e)).trans_eq ?_
        congr 1
        push_cast
        ring
      have hd' : (0 : ℚ) < (i.inUnits (lead - n)).denominator := by exact_mod_cast hd
      rw [div_lt_iff₀ hd'] at hlt
      have hnat : (i.inUnits (lead - n)).value / (i.inUnits (lead - n)).denominator <
          10 ^ (n + 1) := (Nat.div_lt_iff_lt_mul hd).2 (by exact_mod_cast hlt)
      have : 10 ^ (n + 1) ≤ 10 ^ 17 :=
        Nat.pow_le_pow_right (by norm_num) (by have := List.mem_range.1 hn; omega)
      omega
    · rw [h₃, ← interval_high, ← le_div_iff₀ (by positivity), ← hi, ← hh]
      exact hhigh
  · exact .inl rfl

theorem le_trim (bound digits : Nat) (power : Int) : power ≤ (trim bound digits power).2 := by
  induction bound generalizing digits power with
  | zero => exact le_rfl
  | succ bound ih =>
      rw [trim]
      split
      · exact le_trans (by omega) (ih _ _)
      · exact le_rfl

theorem le_leadingPower (num den : Nat) : -400 ≤ leadingPower num den := by
  unfold leadingPower
  split
  · omega
  · split
    · next j hj =>
      have := List.mem_range.1 (List.mem_of_find?_eq_some hj)
      omega
    · omega

/-- The power of ten of a decimal is not far below zero. -/
theorem le_decimal (m : Nat) (e : Int) : -416 ≤ (decimal m e).2 := by
  unfold decimal
  dsimp only
  split
  · next c k hfound =>
    obtain ⟨n, hn, hc⟩ := List.exists_of_findSome?_eq_some hfound
    obtain ⟨c', -, heq⟩ := Option.map_eq_some_iff.1 hc
    obtain ⟨rfl, rfl⟩ := Prod.mk.inj heq
    have h₁ := le_leadingPower (interval m e).value (interval m e).denominator
    have h₂ := List.mem_range.1 hn
    exact le_trans (by omega) (le_trim 20 _ _)
  · decide

/-! ### Near the greatest double -/

/-- The greatest double has the decimal that is written for it. -/
theorem decimal_greatest : decimal (2 ^ 53 - 1) greatestExponent = (17976931348623157, 292) := by
  decide +kernel

/-- The powers of ten that are written lie below the bound of overflow. -/
theorem tenPow_lt_overflow {p : Nat} (hp : p ≤ 308) : 10 ^ p < 2 ^ 1024 - 2 ^ 970 :=
  (Nat.pow_le_pow_right (by norm_num) hp).trans_lt (by decide +kernel)

theorem power_le_of_le {n p : Nat} (hn : 0 < n) (hle : n * 10 ^ p ≤ 2 ^ 1024 - 2 ^ 970) :
    p ≤ 308 := by
  by_contra h
  have hpow : 1 * 10 ^ 309 ≤ n * 10 ^ p :=
    Nat.mul_le_mul hn (Nat.pow_le_pow_right (by norm_num) (by omega))
  exact absurd (hpow.trans hle) (by decide +kernel)

/-- Of the decimals with at most seventeen digits below the bound of overflow, only five come so
close to it that the errors of rounding matter. -/
theorem near_overflow {n p : Nat} (hn : n ≤ 10 ^ 17) (hle : n * 10 ^ p ≤ 2 ^ 1024 - 2 ^ 970)
    (hge : 2 ^ 106 * (2 ^ 1024 - 2 ^ 970) ≤ n * 10 ^ p * (2 ^ 53 + 1) ^ 2) :
    (n = 1797693134862315 ∧ p = 293) ∨
      (17976931348623155 ≤ n ∧ n ≤ 17976931348623158 ∧ p = 292) := by
  have hp₁ : 292 ≤ p := by
    by_contra h
    have hp : p ≤ 291 := by omega
    have h₁ : n * 10 ^ p ≤ 10 ^ 17 * 10 ^ 291 :=
      Nat.mul_le_mul hn (Nat.pow_le_pow_right (by norm_num) hp)
    have h₂ := hge.trans (Nat.mul_le_mul_right _ h₁)
    exact absurd h₂ (by decide +kernel)
  have hn0 : 0 < n := by
    refine Nat.pos_of_ne_zero ?_
    intro h0
    rw [h0, zero_mul, zero_mul] at hge
    exact absurd hge (by decide +kernel)
  have hp₂ : p ≤ 308 := power_le_of_le hn0 hle
  -- for each of the powers left, the digits lie between two numbers
  clear hn
  interval_cases p <;> omega

/-- The bound of overflow is a whole number. -/
theorem overflowAt_eq : overflowAt = ((2 ^ 1024 - 2 ^ 970 : ℕ) : ℚ) := by
  have h : (2 ^ 1024 - 2 ^ 970 : ℕ) * 2 = (2 ^ 54 - 1) * 2 ^ 971 := by
    rw [show 1024 = 54 + 970 from rfl, pow_add, pow_succ 2 970]
    generalize 2 ^ 970 = x
    omega
  have hq : ((2 ^ 1024 - 2 ^ 970 : ℕ) : ℚ) * 2 = ((2 ^ 54 - 1) * 2 ^ 971 : ℕ) := by exact_mod_cast h
  have hp : (2 : ℚ) ^ greatestExponent = ((2 ^ 971 : ℕ) : ℚ) := by
    rw [greatestExponent, Nat.cast_pow]
    exact zpow_natCast 2 971
  rw [overflowAt, hp]
  rw [Nat.cast_mul] at hq
  generalize ((2 ^ 971 : ℕ) : ℚ) = x at hq
  generalize ((2 ^ 1024 - 2 ^ 970 : ℕ) : ℚ) = y at hq
  push_cast at hq
  linarith

/-- A whole number below the bound is rounded to a double, and grows by at most one part in
`2 ^ 53`. -/
theorem ofRatio_one_bounds {n : Nat} (hn : 0 < n) (h : n < 2 ^ 1024 - 2 ^ 970) :
    (ofRatio false n 1).InRange ∧ (ofRatio false n 1).magnitude ≤ n * (1 + 1 / 2 ^ 53) := by
  have hlt : (n : ℚ) / (1 : ℕ) < overflowAt := by
    rw [overflowAt_eq, Nat.cast_one, div_one]
    exact Nat.cast_lt.2 h
  obtain ⟨hr, hm⟩ := finite_ofRatio false one_ne_zero hlt
  rw [Nat.cast_one, div_one] at hm
  exact ⟨hr, hm (by exact_mod_cast hn)⟩

theorem powerOfTen_eq {p : Nat} (hp : p ≤ 308) :
    Json.powerOfTen p = ofRatio false (10 ^ p) 1 := by
  have hsize : (Nat.toDigits 10 1).length = 1 := by decide
  unfold Json.powerOfTen ofDecimal
  simp only [hsize]
  rw [if_neg (by simp; omega), if_neg (by push_cast; omega), if_pos (by omega)]
  simp [tenTo_eq]

/-- Only the greatest double has an interval that reaches the next decimal of seventeen digits. -/
theorem eq_greatest {m : Nat} {e : Int} (hm : m < 2 ^ 53) (he : e ≤ greatestExponent)
    (h : ((17976931348623158 * 10 ^ 292 : ℕ) : ℚ) ≤ m * 2 ^ e + 2 ^ (e - 1)) :
    m = 2 ^ 53 - 1 ∧ e = greatestExponent := by
  have hsum : (m : ℚ) * 2 ^ e + 2 ^ (e - 1) = (2 * m + 1) * 2 ^ (e - 1) := by
    rw [zpow_sub_one₀ (by norm_num)]
    ring
  rw [hsum] at h
  have hpow : ∀ k : ℕ, e - 1 ≤ k → 17976931348623158 * 10 ^ 292 ≤ (2 * m + 1) * 2 ^ k := by
    intro k hk
    have : (2 : ℚ) ^ (e - 1) ≤ 2 ^ k := by
      rw [← zpow_natCast]
      exact zpow_le_zpow_right₀ (by norm_num) hk
    have := h.trans (mul_le_mul_of_nonneg_left this (by positivity : (0 : ℚ) ≤ 2 * m + 1))
    exact_mod_cast this
  unfold greatestExponent at he ⊢
  have he' : e = 971 := by
    by_contra hne
    have h₁ := hpow 969 (by push_cast; omega)
    have h₂ : (2 * m + 1) * 2 ^ 969 ≤ (2 ^ 54 - 1) * 2 ^ 969 := Nat.mul_le_mul_right _ (by omega)
    exact absurd (h₁.trans h₂) (by decide +kernel)
  refine ⟨?_, he'⟩
  by_contra hne
  have h₁ := hpow 970 (by push_cast; omega)
  have h₂ : (2 * m + 1) * 2 ^ 970 ≤ (2 ^ 54 - 3) * 2 ^ 970 := Nat.mul_le_mul_right _ (by omega)
  exact absurd (h₁.trans h₂) (by decide +kernel)

/-- A product of two numbers, each rounded once, is in range if it stays far enough from the bound
for the two errors. -/
theorem inRange_mul_of_far {x y : Binary64} {a b : Nat} (hx : x.InRange) (hy : y.InRange)
    (hxa : x.magnitude ≤ a * (1 + 1 / 2 ^ 53)) (hyb : y.magnitude ≤ b * (1 + 1 / 2 ^ 53))
    (hfar : a * b * (2 ^ 53 + 1) ^ 2 < 2 ^ 106 * (2 ^ 1024 - 2 ^ 970)) : (x.mul y).InRange := by
  refine inRange_mul hx hy ?_
  have hq : (a * b * (2 ^ 53 + 1) ^ 2 : ℚ) < 2 ^ 106 * overflowAt := by
    rw [overflowAt_eq]
    exact_mod_cast hfar
  calc _ ≤ ((a : ℚ) * (1 + 1 / 2 ^ 53)) * (b * (1 + 1 / 2 ^ 53)) :=
        mul_le_mul hxa hyb (magnitude_nonneg _) ((magnitude_nonneg _).trans hxa)
    _ = a * b * (2 ^ 53 + 1) ^ 2 / 2 ^ 106 := by ring
    _ < overflowAt := by
        rw [div_lt_iff₀ (by norm_num)]
        linarith only [hq]

/-- **The shortest decimal of a double does not overflow** when its digits are multiplied by its
power of ten. -/
theorem inRange_mul_powerOfTen {m n p : Nat} {e : Int} (hm : 0 < m) (hm' : m < 2 ^ 53)
    (he : e ≤ greatestExponent) (h : decimal m e = (n, (p : ℤ))) :
    ((ofNat n).mul (Json.powerOfTen p)).InRange ∧ p ≤ 308 := by
  rcases decimal_bounds hm e with h0 | ⟨hn, hle, hv⟩
  · -- nothing was found, for which zero stands
    obtain ⟨rfl, hp⟩ := Prod.mk.inj (h.symm.trans h0)
    obtain rfl : p = 0 := by exact_mod_cast hp
    exact ⟨inRange_mul_of_isInfinite_eq (by decide +kernel), by norm_num⟩
  · rw [h] at hn hle hv
    simp only at hn hle hv
    have hV : n * 10 ^ p ≤ 2 ^ 1024 - 2 ^ 970 := by
      have := hv.trans (high_le_overflowAt hm' he)
      rw [overflowAt_eq, zpow_natCast] at this
      exact_mod_cast this
    have hp : p ≤ 308 := power_le_of_le hn hV
    refine ⟨?_, hp⟩
    have hx := ofRatio_one_bounds hn (hle.trans_lt (tenPow_lt_overflow (by norm_num)))
    have hy := ofRatio_one_bounds (n := 10 ^ p) (by positivity) (tenPow_lt_overflow hp)
    rw [← powerOfTen_eq hp] at hy
    by_cases hfar : n * 10 ^ p * (2 ^ 53 + 1) ^ 2 < 2 ^ 106 * (2 ^ 1024 - 2 ^ 970)
    · exact inRange_mul_of_far hx.1 hy.1 hx.2 hy.2 hfar
    · -- the few decimals next to the bound are computed
      refine inRange_mul_of_isInfinite_eq ?_
      rcases near_overflow hle hV (not_lt.1 hfar) with ⟨rfl, rfl⟩ | ⟨h₁, h₂, rfl⟩
      · decide +kernel
      · obtain rfl | rfl | rfl | rfl : n = 17976931348623155 ∨ n = 17976931348623156 ∨
            n = 17976931348623157 ∨ n = 17976931348623158 := by omega
        · decide +kernel
        · decide +kernel
        · decide +kernel
        · -- this one would overflow, but it is not the decimal of any double
          obtain ⟨rfl, rfl⟩ := eq_greatest hm' he (by
            rw [zpow_natCast] at hv
            exact_mod_cast hv)
          rw [decimal_greatest] at h
          simp at h

end SchemaScope.Shortest
