/-
**What reading yields.**

Not every value can come out of a text: integers fit the words, doubles are finite, an object holds
each key once, and lists and objects nest no deeper than the reader goes.  Such values are called
sound, and reading yields nothing else.

Main definitions:

* `Json.Sound` — a value as it comes out of a text.

Main results:

* `Json.readNumber_sound` — a number that is read fits its kind;
* `Json.readValue_sound`, `Json.sound_of_parseChars` — **reading yields sound values**.
-/

import SchemaScope.Proofs.Json.Members
import SchemaScope.Proofs.Json.NumberText
import SchemaScope.Proofs.Json.Passage

set_option autoImplicit false

namespace SchemaScope

namespace Json

/-- A value as it comes out of a text, in which lists and objects nest at most `depth` deep. -/
inductive Sound : Nat → Json → Prop
  | null {depth : Nat} : Sound depth .null
  | bool {depth : Nat} {b : Bool} : Sound depth (.bool b)
  | integer {depth : Nat} {n : Int} : -2 ^ 63 ≤ n → n ≤ maxWord → Sound depth (.integer n)
  | double {depth : Nat} {x : Binary64} : x.InRange → Sound depth (.double x)
  | string {depth : Nat} {t : String} : Sound depth (.string t)
  | array {depth : Nat} {vs : List Json} : (∀ v ∈ vs, Sound depth v) → Sound (depth + 1) (.array vs)
  | object {depth : Nat} {ms : Members} : ms.keys.Nodup → (∀ m ∈ ms, Sound depth m.2) →
      Sound (depth + 1) (.object ms)

/-! ### Numbers -/

theorem wholePart_le (digits : List Char) {n : Nat} (h : n ≤ maxWord) :
    (wholePart digits n).1 ≤ maxWord := by
  induction digits generalizing n with
  | nil => exact h
  | cons c digits ih =>
      rw [wholePart]
      split
      · exact h
      · exact ih (by omega)

theorem fractionPart_fst_le (digits : List Char) {n : Nat} (power : Int) (h : n ≤ maxWord) :
    (fractionPart digits n power).1 ≤ maxWord := by
  induction digits generalizing n power with
  | nil => exact h
  | cons c digits ih =>
      rw [fractionPart]
      split
      · exact h
      · exact ih _ (by omega)

theorem inRange_ofNat {n : Nat} (h : n ≤ maxWord) : (Binary64.ofNat n).InRange := by
  rcases Nat.eq_zero_or_pos n with rfl | hn
  · simp [Binary64.ofNat, Binary64.ofRatio, Binary64.InRange, Binary64.leastExponent,
      Binary64.greatestExponent]
  · have hword : maxWord < 10 ^ 20 := by
      rw [maxWord, twoTo_eq]
      norm_num
    have hmax := hword.trans (Shortest.tenPow_lt_overflow (by norm_num))
    exact (Shortest.ofRatio_one_bounds hn (h.trans_lt hmax)).1

/-- A power of ten within the range is a double that is at least one. -/
theorem powerOfTen_bounds {p : Nat} (hp : p ≤ 308) :
    (powerOfTen p).InRange ∧ 1 ≤ (powerOfTen p).magnitude := by
  have hlt : 10 ^ p < 2 ^ 1024 - 2 ^ 970 := Shortest.tenPow_lt_overflow hp
  have hone : 1 ≤ ((10 ^ p : ℕ) : ℚ) := by exact_mod_cast Nat.one_le_pow _ _ (by norm_num)
  have hover : ((10 ^ p : ℕ) : ℚ) / (1 : ℕ) < Binary64.overflowAt := by
    rw [Shortest.overflowAt_eq, Nat.cast_one, div_one]
    exact Nat.cast_lt.2 hlt
  rw [Shortest.powerOfTen_eq hp]
  exact ⟨(Binary64.finite_ofRatio false one_ne_zero hover).1,
    Binary64.one_le_magnitude_ofRatio false one_ne_zero hover (by simpa using hone)⟩

theorem inRange_div_powerOfTen {x : Binary64} (hx : x.InRange) {p : Nat} (hp : p ≤ 308) :
    (x.div (powerOfTen p)).InRange := by
  obtain ⟨hr, hm⟩ := powerOfTen_bounds hp
  exact Binary64.inRange_div hx hr hm

theorem inRange_combine? {bound : Nat} {x y : Binary64} {power : Int} (hx : x.InRange)
    (h : combine? bound x power = some y) : y.InRange := by
  induction bound generalizing x power with
  | zero =>
      cases h
      exact hx
  | succ bound ih =>
      rw [combine?] at h
      split at h
      · next hp =>
        split at h
        · -- a product is refused if it is infinite
          dsimp only at h
          split at h
          · cases h
          · next hi =>
            cases h
            exact Binary64.inRange_mul_of_isInfinite_eq (by simpa using hi)
        · cases h
          exact inRange_div_powerOfTen hx hp
      · split at h
        · cases h
          exact hx
        · -- a power out of reach is taken in steps, each a division
          split at h
          · cases h
          · exact ih (inRange_div_powerOfTen hx (le_refl 308)) h

theorem doubleFrom_sound {negative : Bool} {n : Nat} {power : Int} {s s' : Scan} {v : Json}
    (hn : n ≤ maxWord) (h : doubleFrom negative n power s = .ok (v, s')) (depth : Nat) :
    Sound depth v := by
  unfold doubleFrom at h
  split at h
  · next x hx =>
    have hr := inRange_combine? (inRange_ofNat hn) hx
    cases h
    split
    · exact .double ((Binary64.inRange_neg x).2 hr)
    · exact .double hr
  · cases h

theorem readExponent_sound {negative : Bool} {n : Nat} {power : Int} {s s' : Scan} {v : Json}
    (hn : n ≤ maxWord) (h : readExponent negative n power s = .ok (v, s')) (depth : Nat) :
    Sound depth v := by
  unfold readExponent at h
  dsimp only at h
  split at h
  · cases h
  · split at h
    · cases h
    · split at h
      · exact doubleFrom_sound hn h depth
      · split at h
        · cases h
        · cases h
          exact .double ⟨by norm_num, le_rfl, by decide⟩

theorem readFraction_sound {negative : Bool} {n : Nat} {power : Int} {s s' : Scan} {v : Json}
    (hn : n ≤ maxWord) (h : readFraction negative n power s = .ok (v, s')) (depth : Nat) :
    Sound depth v := by
  unfold readFraction at h
  dsimp only at h
  split at h
  · cases h
  · split at h
    · exact readExponent_sound (fractionPart_fst_le _ _ hn) h depth
    · exact doubleFrom_sound (fractionPart_fst_le _ _ hn) h depth

theorem whole_sound {negative : Bool} {n power : Nat} {s s' : Scan} {v : Json} (hn : n ≤ maxWord)
    (h : finishNumber.whole negative s n power = .ok (v, s')) (depth : Nat) : Sound depth v := by
  unfold finishNumber.whole at h
  split at h
  · exact doubleFrom_sound hn h depth
  · split at h
    · cases h
      exact .integer (by omega) (by exact_mod_cast hn)
    · split at h
      · cases h
        exact .double ((Binary64.inRange_neg _).2 (inRange_ofNat hn))
      · next hneg =>
        cases h
        have hle : n ≤ twoTo 63 := not_lt.1 fun hlt => hneg (by simp [hlt])
        rw [twoTo_eq] at hle
        exact .integer (by omega) (by omega)

/-- A number that is read fits its kind. -/
theorem readNumber_sound {negative : Bool} {s s' : Scan} {v : Json}
    (h : readNumber negative s = .ok (v, s')) (depth : Nat) : Sound depth v := by
  -- whatever the first digits are, the rest of the number is read in one way
  have hfinish : ∀ {digits : List Char} {t : Scan},
      finishNumber negative digits t = .ok (v, s') → Sound depth v := by
    intro digits t h
    have hw := wholePart_le digits (Nat.zero_le maxWord)
    unfold finishNumber at h
    dsimp only at h
    split at h
    · exact readFraction_sound hw h depth
    · split at h
      · exact readExponent_sound hw h depth
      · exact whole_sound hw h depth
    · exact whole_sound hw h depth
  unfold readNumber at h
  split at h
  · cases h
  · split at h
    · cases h
    · exact hfinish h
  · split at h
    · exact hfinish h
    · cases h

/-! ### Values -/

section Parts

variable {value : Scan → Except Error (Json × Scan)} {depth : Nat}
  (hvalue : ∀ {s s' : Scan} {v : Json}, value s = .ok (v, s') → Sound depth v)

include hvalue

theorem readElements_sound {bound : Nat} {first : Bool} {read : List Json} {s s' : Scan} {v : Json}
    (h : readElements value bound first read s = .ok (v, s')) (hr : ∀ x ∈ read, Sound depth x) :
    Sound (depth + 1) v := by
  induction bound generalizing first read s with
  | zero => cases h
  | succ bound ih =>
      rcases readElements_cases h with ⟨rfl, -⟩ | ⟨_, x, s₁, s₂, hb, -, hx, h⟩
      · refine .array ?_
        intro x hx
        exact hr x (List.mem_reverse.1 hx)
      · cases hb
        exact ih h (List.forall_mem_cons.2 ⟨hvalue hx, hr⟩)

theorem readMembers_sound {bound : Nat} {first : Bool} {read : Members} {s s' : Scan} {v : Json}
    (h : readMembers value bound first read s = .ok (v, s')) (hk : read.keys.Nodup)
    (hr : ∀ m ∈ read, Sound depth m.2) : Sound (depth + 1) v := by
  induction bound generalizing first read s with
  | zero => cases h
  | succ bound ih =>
      rcases readMembers_cases h with ⟨rfl, -⟩ | ⟨_, _, chars, _, x, _, _, hb, -, -, -, hx, h⟩
      · exact .object hk hr
      · cases hb
        refine ih h (Members.nodup_keys_put hk _ _) ?_
        intro m hm
        rcases Members.mem_put_iff.1 hm with rfl | hm
        · exact hvalue hx
        · exact hr m (Members.mem_of_mem_others hm)

end Parts

/-- **Reading yields sound values.** -/
theorem readValue_sound {depth : Nat} {s s' : Scan} {v : Json}
    (h : readValue depth s = .ok (v, s')) : Sound depth v := by
  induction depth generalizing s s' v with
  | zero =>
      rcases readValue_cases h with ⟨-, rfl | ⟨b, rfl⟩ | ⟨_, _, hn⟩⟩ | ⟨_, _, -, -, rfl⟩ |
        ⟨_, _, _, hz, _⟩ | ⟨_, _, _, hz, _⟩
      · exact .null
      · exact .bool
      · exact readNumber_sound hn 0
      · exact .string
      · cases hz
      · cases hz
  | succ depth ih =>
      rcases readValue_cases h with ⟨-, rfl | ⟨b, rfl⟩ | ⟨_, _, hn⟩⟩ | ⟨_, _, -, -, rfl⟩ |
        ⟨_, _, _, hz, -, h⟩ | ⟨_, _, _, hz, -, h⟩
      · exact .null
      · exact .bool
      · exact readNumber_sound hn _
      · exact .string
      · cases hz
        exact readElements_sound ih h (by simp)
      · cases hz
        exact readMembers_sound ih h List.nodup_nil (by simp)

theorem sound_of_parseChars {text : List Char} {v : Json} (h : parseChars text = .ok v) :
    Sound maxDepth v := by
  obtain ⟨⟨x, s⟩, hx, h⟩ := exists_of_bind_ok h
  dsimp only at h
  split at h
  · cases h
    exact readValue_sound hx
  · cases h

end Json

end SchemaScope
