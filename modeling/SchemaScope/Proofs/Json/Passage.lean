/-
**What reading passes.**

The readers of values, as far as they give a result, seen from outside: which value they give, and
which part of the text they pass on the way.  Outside of strings they pass neither quotes nor
backslashes.  Each reader has one inversion lemma that says everything a successful reading can do,
without the positions and the bounds that the readers carry along.

Main definitions:

* `Json.Plainly` — the rest of a text is reached without passing a quote or a backslash.

Main results:

* `Json.readNumber_plainly`, `Json.readWord_plainly` — what is passed in reading a number or a word;
* `Json.readElements_cases`, `Json.readMembers_cases` — one more element or member, or the end;
* `Json.readValue_cases` — **what reading a value can do**.
-/

import SchemaScope.Proofs.Json.Spelling

set_option autoImplicit false

namespace SchemaScope.Json

/-! ### Passing structure -/

/-- The rest of the text is reached without passing a quote or a backslash. -/
def Plainly (text rest : List Char) : Prop :=
  ∃ front, text = front ++ rest ∧ '"' ∉ front ∧ '\\' ∉ front

theorem Plainly.refl (text : List Char) : Plainly text text := ⟨[], rfl, by simp, by simp⟩

theorem Plainly.trans {a b c : List Char} (h : Plainly a b) (h' : Plainly b c) : Plainly a c := by
  obtain ⟨front, rfl, hq, hb⟩ := h
  obtain ⟨front', rfl, hq', hb'⟩ := h'
  exact ⟨front ++ front', by simp, by simp [hq, hq'], by simp [hb, hb']⟩

theorem Plainly.cons {c : Char} {text rest : List Char} (hq : c ≠ '"') (hb : c ≠ '\\')
    (h : Plainly text rest) : Plainly (c :: text) rest := by
  obtain ⟨front, rfl, hq', hb'⟩ := h
  exact ⟨c :: front, rfl, by simp [hq.symm, hq'], by simp [hb.symm, hb']⟩

/-- Passing characters that are accepted by a test which refuses quotes and backslashes. -/
theorem plainly_drop_takeWhile {p : Char → Bool} (hq : p '"' = false) (hb : p '\\' = false)
    (text : List Char) : Plainly text (text.drop (text.takeWhile p).length) := by
  induction text with
  | nil => exact Plainly.refl _
  | cons c text ih =>
      by_cases hc : p c = true
      · rw [List.takeWhile_cons_of_pos hc, List.length_cons, List.drop_succ_cons]
        refine ih.cons ?_ ?_
        · rintro rfl
          simp [hq] at hc
        · rintro rfl
          simp [hb] at hc
      · rw [List.takeWhile_cons_of_neg hc]
        exact Plainly.refl _

theorem skipBlanks_plainly (s : Scan) : Plainly s.rest (skipBlanks s).rest :=
  plainly_drop_takeWhile (by decide) (by decide) s.rest

theorem skip_digits_plainly (s : Scan) :
    Plainly s.rest (s.skip (s.rest.takeWhile Char.isDigit).length).rest :=
  plainly_drop_takeWhile (by decide) (by decide) s.rest

/-- Passing the next character. -/
theorem next_plainly {s : Scan} {c : Char} {rest : List Char} (h : s.rest = c :: rest)
    (hq : c ≠ '"') (hb : c ≠ '\\') : Plainly s.rest s.next.rest := by
  have hn : s.next.rest = rest := by simp [Scan.next, h]
  rw [h, hn]
  exact (Plainly.refl rest).cons hq hb

/-! ### Numbers and words -/

theorem readWord_plainly {value v : Json} {word : List Char} {s s' : Scan}
    (hq : '"' ∉ word) (hb : '\\' ∉ word) (h : readWord value word s = .ok (v, s')) :
    Plainly s.rest s'.rest := by
  induction word generalizing s with
  | nil =>
      rw [readWord] at h
      cases h
      exact Plainly.refl _
  | cons e es ih =>
      simp only [List.mem_cons, not_or] at hq hb
      rw [readWord] at h
      split at h
      · cases h
      · next c rest hr =>
        split at h
        · next hc =>
          subst hc
          exact (next_plainly hr (Ne.symm hq.1) (Ne.symm hb.1)).trans (ih hq.2 hb.2 h)
        · cases h

theorem readWord_value {value v : Json} {word : List Char} {s s' : Scan}
    (h : readWord value word s = .ok (v, s')) : v = value := by
  induction word generalizing s with
  | nil =>
      cases h
      rfl
  | cons e es ih =>
      rw [readWord] at h
      split at h
      · cases h
      · split at h
        · exact ih h
        · cases h

theorem doubleFrom_scan {negative : Bool} {n : Nat} {power : Int} {s s' : Scan} {v : Json}
    (h : doubleFrom negative n power s = .ok (v, s')) : s' = s := by
  unfold doubleFrom at h
  split at h
  · cases h; rfl
  · cases h

theorem readExponent_plainly {negative : Bool} {n : Nat} {power : Int} {s s' : Scan} {v : Json}
    (h : readExponent negative n power s = .ok (v, s')) : Plainly s.rest s'.rest := by
  unfold readExponent at h
  dsimp only at h
  -- the sign, if there is one
  have hsign : Plainly s.rest
      (if (s.rest.head? == some '-' || s.rest.head? == some '+') = true then s.next else s).rest := by
    split
    · next hs =>
      cases hr : s.rest with
      | nil => simp [hr] at hs
      | cons c rest =>
          rw [← hr]
          refine next_plainly hr ?_ ?_ <;>
          · rintro rfl
            simp [hr] at hs
    · exact Plainly.refl _
  refine hsign.trans ?_
  revert h
  generalize (if (s.rest.head? == some '-' || s.rest.head? == some '+') = true
    then s.next else s) = t
  intro h
  split at h
  · cases h
  · split at h
    · cases h
    · have hd := skip_digits_plainly t
      split at h
      · rw [doubleFrom_scan h]
        exact hd
      · split at h
        · cases h
        · cases h
          exact hd

theorem readFraction_plainly {negative : Bool} {n : Nat} {power : Int} {s s' : Scan} {v : Json}
    (h : readFraction negative n power s = .ok (v, s')) : Plainly s.rest s'.rest := by
  unfold readFraction at h
  dsimp only at h
  split at h
  · cases h
  · have hd := skip_digits_plainly s
    revert h hd
    generalize s.skip (s.rest.takeWhile Char.isDigit).length = t
    intro h hd
    split at h
    · -- the mark of an exponent is neither a quote nor a backslash
      next hm =>
      cases hr : t.rest with
      | nil => simp [hr] at hm
      | cons c rest =>
          have hn : Plainly t.rest t.next.rest := by
            refine next_plainly hr ?_ ?_ <;>
            · rintro rfl
              simp [hr, isExponentMark] at hm
          exact hd.trans (hn.trans (readExponent_plainly h))
    · rw [doubleFrom_scan h]
      exact hd

theorem whole_scan {negative : Bool} {n power : Nat} {s s' : Scan} {v : Json}
    (h : finishNumber.whole negative s n power = .ok (v, s')) : s' = s := by
  unfold finishNumber.whole at h
  split at h
  · exact doubleFrom_scan h
  · split at h
    · cases h; rfl
    · split at h <;> cases h <;> rfl

theorem finishNumber_plainly {negative : Bool} {digits : List Char} {s s' : Scan} {v : Json}
    (h : finishNumber negative digits s = .ok (v, s')) : Plainly s.rest s'.rest := by
  unfold finishNumber at h
  dsimp only at h
  split at h
  · next hr => exact (next_plainly hr (by decide) (by decide)).trans (readFraction_plainly h)
  · next c _ hr =>
    split at h
    · next hm =>
      refine (next_plainly hr ?_ ?_).trans (readExponent_plainly h) <;>
      · rintro rfl
        simp [isExponentMark] at hm
    · rw [whole_scan h]
      exact Plainly.refl _
  · rw [whole_scan h]
    exact Plainly.refl _

/-- A number is passed without a quote or a backslash. -/
theorem readNumber_plainly {negative : Bool} {s s' : Scan} {v : Json}
    (h : readNumber negative s = .ok (v, s')) : Plainly s.rest s'.rest := by
  unfold readNumber at h
  split at h
  · cases h
  · next hr =>
    split at h
    · cases h
    · exact (next_plainly hr (by decide) (by decide)).trans (finishNumber_plainly h)
  · split at h
    · exact (skip_digits_plainly s).trans (finishNumber_plainly h)
    · cases h

/-! ### Lists and objects -/

theorem exists_of_bind_ok {ε α β : Type} {x : Except ε α} {f : α → Except ε β} {b : β}
    (h : x >>= f = .ok b) : ∃ a, x = .ok a ∧ f a = .ok b := by
  cases x with
  | error e => cases h
  | ok a => exact ⟨a, rfl, h⟩

theorem ok_of_mapError {ε ε' α : Type} {x : Except ε α} {f : ε → ε'} {a : α}
    (h : x.mapError f = .ok a) : x = .ok a := by
  cases x with
  | error e => cases h
  | ok b =>
      cases h
      rfl

section Parts

variable {value : Scan → Except Error (Json × Scan)} {bound : Nat} {first : Bool} {s s' : Scan}
  {v : Json}

/-- The elements are at their end, or one more is read. -/
theorem readElements_cases {read : List Json}
    (h : readElements value bound first read s = .ok (v, s')) :
    (v = .array read.reverse ∧ Plainly s.rest s'.rest) ∨
      ∃ bound' x s₁ s₂, bound = bound' + 1 ∧ Plainly s.rest s₁.rest ∧ value s₁ = .ok (x, s₂) ∧
        readElements value bound' false (x :: read) s₂ = .ok (v, s') := by
  cases bound with
  | zero => cases h
  | succ bound' =>
      have hb := skipBlanks_plainly s
      rw [readElements] at h
      revert h hb
      dsimp only
      generalize skipBlanks s = t
      intro h hb
      split at h
      · cases h
      · -- the closing bracket
        next hr =>
        cases h
        exact .inl ⟨rfl, hb.trans (next_plainly hr (by decide) (by decide))⟩
      · next hr =>
        split at h
        · -- the first element
          obtain ⟨⟨x, s₂⟩, hx, h⟩ := exists_of_bind_ok h
          exact .inr ⟨bound', x, t, s₂, rfl, hb, hx, h⟩
        · -- a comma, and an element behind it
          split at h
          · cases h
          · next hc =>
            have hc := not_not.1 hc
            subst hc
            have hn := next_plainly hr (by decide) (by decide)
            have hb' := hb.trans (hn.trans (skipBlanks_plainly t.next))
            split at h
            · cases h
            · cases h
            · obtain ⟨⟨x, s₂⟩, hx, h⟩ := exists_of_bind_ok h
              exact .inr ⟨bound', x, _, s₂, rfl, hb', hx, h⟩

/-- A member is a string, then a colon, then a value. -/
theorem readMember_cases {text : List Char} {k : String} (hs : s.rest = '"' :: text)
    (h : readMember value s = .ok ((k, v), s')) :
    ∃ chars rest s₁, k = String.ofList chars ∧ Spells text chars rest ∧ Plainly rest s₁.rest ∧
      value s₁ = .ok (v, s') := by
  rw [readMember] at h
  obtain ⟨⟨key, t⟩, ht, h⟩ := exists_of_bind_ok h
  have hn : s.next.rest = text := by simp [Scan.next, hs]
  rw [hn] at ht
  obtain ⟨chars, rfl, hsp⟩ := spells_of_readText ht
  have hb := skipBlanks_plainly t
  revert h hb
  dsimp only
  generalize skipBlanks t = u
  intro h hb
  split at h
  · cases h
  · next hr =>
    obtain ⟨⟨x, s₂⟩, hx, h⟩ := exists_of_bind_ok h
    cases h
    exact ⟨chars, t.rest, u.next, by simp, hsp,
      hb.trans (next_plainly hr (by decide) (by decide)), hx⟩
  · cases h

/-- The members are at their end, or one more is read. -/
theorem readMembers_cases {read : Members}
    (h : readMembers value bound first read s = .ok (v, s')) :
    (v = .object read ∧ Plainly s.rest s'.rest) ∨
      ∃ bound' text chars rest x s₁ s₂, bound = bound' + 1 ∧ Plainly s.rest ('"' :: text) ∧
        Spells text chars rest ∧ Plainly rest s₁.rest ∧ value s₁ = .ok (x, s₂) ∧
        readMembers value bound' false (read.put (String.ofList chars) x) s₂ = .ok (v, s') := by
  cases bound with
  | zero => cases h
  | succ bound' =>
      have hb := skipBlanks_plainly s
      rw [readMembers] at h
      revert h hb
      dsimp only
      generalize skipBlanks s = t
      intro h hb
      split at h
      · cases h
      · -- the closing bracket
        next hr =>
        cases h
        exact .inl ⟨rfl, hb.trans (next_plainly hr (by decide) (by decide))⟩
      · next c text _ hr =>
        split at h
        · -- the first member
          split at h
          · cases h
          · next hc =>
            have hc := not_not.1 hc
            subst hc
            obtain ⟨⟨⟨k, x⟩, s₂⟩, hx, h⟩ := exists_of_bind_ok h
            obtain ⟨chars, rest, s₁, rfl, hsp, hp, hv⟩ := readMember_cases hr hx
            exact .inr ⟨bound', text, chars, rest, x, s₁, s₂, rfl, hr ▸ hb, hsp, hp, hv, h⟩
        · -- a comma, and a member behind it
          split at h
          · cases h
          · next hc =>
            have hc := not_not.1 hc
            subst hc
            have hn := next_plainly hr (by decide) (by decide)
            have hb' := hb.trans (hn.trans (skipBlanks_plainly t.next))
            split at h
            · cases h
            · cases h
            · next d text _ hr' =>
              split at h
              · cases h
              · next hd =>
                have hd := not_not.1 hd
                subst hd
                obtain ⟨⟨⟨k, x⟩, s₂⟩, hx, h⟩ := exists_of_bind_ok h
                obtain ⟨chars, rest, s₁, rfl, hsp, hp, hv⟩ := readMember_cases hr' hx
                exact .inr ⟨bound', text, chars, rest, x, s₁, s₂, rfl, hr' ▸ hb', hsp, hp, hv, h⟩

end Parts

/-! ### Values -/

/-- What reading a value can do: it passes a word or a number, or reads a string, a list or an
object. -/
theorem readValue_cases {depth : Nat} {s s' : Scan} {v : Json}
    (h : readValue depth s = .ok (v, s')) :
    (Plainly s.rest s'.rest ∧ (v = .null ∨ (∃ b, v = .bool b) ∨
        ∃ negative t, readNumber negative t = .ok (v, s'))) ∨
      (∃ text chars, Plainly s.rest ('"' :: text) ∧ Spells text chars s'.rest ∧
        v = .string (String.ofList chars)) ∨
      (∃ depth' bound s₁, depth = depth' + 1 ∧ Plainly s.rest s₁.rest ∧
        readElements (readValue depth') bound true [] s₁ = .ok (v, s')) ∨
      ∃ depth' bound s₁, depth = depth' + 1 ∧ Plainly s.rest s₁.rest ∧
        readMembers (readValue depth') bound true [] s₁ = .ok (v, s') := by
  have hb := skipBlanks_plainly s
  rw [readValue.eq_def] at h
  revert h hb
  dsimp only
  generalize skipBlanks s = t
  intro h hb
  have hnext : ∀ {c : Char} {rest : List Char}, t.rest = c :: rest → c ≠ '"' → c ≠ '\\' →
      Plainly s.rest t.next.rest := by
    intro c rest hr hq hs
    exact hb.trans (next_plainly hr hq hs)
  -- one case for each first character of a value, in the order of the reader
  split at h
  · cases h
  · next hr =>
    have hw := readWord_plainly (by decide) (by decide) h
    exact .inl ⟨(hnext hr (by decide) (by decide)).trans hw, .inl (readWord_value h)⟩
  · next hr =>
    have hw := readWord_plainly (by decide) (by decide) h
    exact .inl ⟨(hnext hr (by decide) (by decide)).trans hw, .inr (.inl ⟨_, readWord_value h⟩)⟩
  · next hr =>
    have hw := readWord_plainly (by decide) (by decide) h
    exact .inl ⟨(hnext hr (by decide) (by decide)).trans hw, .inr (.inl ⟨_, readWord_value h⟩)⟩
  · next hr =>
    exact .inl ⟨(hnext hr (by decide) (by decide)).trans (readNumber_plainly h),
      .inr (.inr ⟨_, _, h⟩)⟩
  · next text hr =>
    obtain ⟨⟨x, s₂⟩, hx, h⟩ := exists_of_bind_ok h
    cases h
    have hn : t.next.rest = text := by simp [Scan.next, hr]
    rw [hn] at hx
    obtain ⟨chars, rfl, hsp⟩ := spells_of_readText hx
    exact .inr (.inl ⟨text, chars, hr ▸ hb, hsp, by simp⟩)
  · next hr =>
    split at h
    · cases h
    · next depth' =>
      exact .inr (.inr (.inl ⟨depth', _, t.next, rfl, hnext hr (by decide) (by decide), h⟩))
  · next hr =>
    split at h
    · cases h
    · next depth' =>
      exact .inr (.inr (.inr ⟨depth', _, t.next, rfl, hnext hr (by decide) (by decide), h⟩))
  · split at h
    · exact .inl ⟨hb.trans (readNumber_plainly h), .inr (.inr ⟨_, _, h⟩)⟩
    · cases h

end SchemaScope.Json
