/-
**Texts that no reader gets through.**

If a string ends too early or too late, the reader takes what stands in strings for structure and
the other way round.  Outside of strings it cannot pass a backslash, and at a quote it starts a
string; if that string cannot be read, or leaves the reader in the same trouble, the text is lost.
Such texts are called derailed, and the readers of this library keep to the rule that what follows a
derailed text after a value is derailed too.

Main definitions:

* `Json.Derailed` — a text that no reader gets through;
* `Json.Guarded` — a text in which every quote comes right after a backslash.

Main results:

* `Json.derailed_of_guarded` — what stands between quotes, taken for structure, derails the reading;
* `Json.readValue_derailed` — reading a value from a derailed text leaves a derailed text;
* `Json.not_derailed_of_skipBlanks` — **what is left after the value of a document is not derailed**.
-/

import SchemaScope.Proofs.Json.Passage

set_option autoImplicit false

namespace SchemaScope.Json

/-! ### Derailed texts -/

/-- A text in which a reader outside of strings meets a backslash, or meets a quote after which a
string cannot be read or leaves a derailed text. -/
inductive Derailed : List Char → Prop
  | backslash {front rest : List Char} : '"' ∉ front → '\\' ∉ front →
      Derailed (front ++ '\\' :: rest)
  | quote {front rest : List Char} : '"' ∉ front → '\\' ∉ front →
      (∀ chars rest', Spells rest chars rest' → Derailed rest') → Derailed (front ++ '"' :: rest)

/-- What is passed without quotes and backslashes comes before the trouble. -/
theorem Plainly.exists_front {front text rest : List Char} {c : Char} (hc : c = '"' ∨ c = '\\')
    (h : Plainly (front ++ c :: text) rest) : ∃ front', front = front' ++ (front.drop front'.length) ∧
      rest = front.drop front'.length ++ c :: text := by
  obtain ⟨front', he, hq, hb⟩ := h
  refine ⟨front', ?_⟩
  rcases List.append_eq_append_iff.1 he with ⟨as, h₁, h₂⟩ | ⟨as, h₁, h₂⟩
  · -- nothing that is passed plainly reaches over the quote or the backslash
    cases as with
    | nil => simp_all
    | cons a as =>
        simp only [List.cons_append, List.cons.injEq] at h₂
        obtain ⟨rfl, -⟩ := h₂
        rw [h₁] at hq hb
        rcases hc with rfl | rfl <;> simp at hq hb
  · subst h₁
    simp [h₂]

theorem Derailed.of_plainly {text rest : List Char} (h : Derailed text) (hp : Plainly text rest) :
    Derailed rest := by
  cases h with
  | @backslash front _ hq hb =>
      obtain ⟨front', hf, rfl⟩ := hp.exists_front (.inr rfl)
      have hq' : '"' ∉ front.drop front'.length := fun hm => hq (List.mem_of_mem_drop hm)
      have hb' : '\\' ∉ front.drop front'.length := fun hm => hb (List.mem_of_mem_drop hm)
      exact .backslash hq' hb'
  | @quote front _ hq hb hs =>
      obtain ⟨front', hf, rfl⟩ := hp.exists_front (.inl rfl)
      have hq' : '"' ∉ front.drop front'.length := fun hm => hq (List.mem_of_mem_drop hm)
      have hb' : '\\' ∉ front.drop front'.length := fun hm => hb (List.mem_of_mem_drop hm)
      exact .quote hq' hb' hs

theorem Derailed.of_spells {text chars rest : List Char} (h : Derailed ('"' :: text))
    (hs : Spells text chars rest) : Derailed rest := by
  generalize ht : '"' :: text = whole at h
  cases h with
  | @backslash front _ hq _ =>
      -- a derailed text that opens with a quote does not open with a backslash
      cases front with
      | nil => simp at ht
      | cons c front =>
          simp only [List.cons_append, List.cons.injEq] at ht
          exact absurd (List.mem_cons.2 (.inl ht.1)) hq
  | @quote front _ hq _ hall =>
      cases front with
      | nil =>
          simp only [List.nil_append, List.cons.injEq, true_and] at ht
          exact hall _ _ (ht ▸ hs)
      | cons c front =>
          simp only [List.cons_append, List.cons.injEq] at ht
          exact absurd (List.mem_cons.2 (.inl ht.1)) hq

theorem not_derailed_nil : ¬ Derailed [] := by
  intro h
  generalize ht : ([] : List Char) = text at h
  cases h <;> simp at ht

/-- Every string that is read from the text leaves a derailed one. -/
def Lost (text : List Char) : Prop := ∀ chars rest, Spells text chars rest → Derailed rest

/-- Every quote in the text comes right after a backslash. -/
def Guarded (text : List Char) : Prop :=
  ∀ front back, text = front ++ '"' :: back → ∃ front', front = front' ++ ['\\']

theorem guarded_of_not_mem {text : List Char} (h : '"' ∉ text) : Guarded text := by
  rintro front back rfl
  simp at h

theorem Guarded.append {a b : List Char} (ha : Guarded a) (hb : Guarded b) : Guarded (a ++ b) := by
  intro front back h
  -- the quote stands in the second text or in the first one
  rcases List.append_eq_append_iff.1 h with ⟨mid, rfl, h'⟩ | ⟨mid, rfl, h'⟩
  · obtain ⟨front', rfl⟩ := hb mid back h'
    exact ⟨a ++ front', by simp⟩
  · cases mid with
    | nil =>
        obtain ⟨front', hf⟩ := hb [] back h'.symm
        simp at hf
    | cons c mid =>
        simp only [List.cons_append, List.cons.injEq] at h'
        obtain ⟨rfl, -⟩ := h'
        exact ha front mid rfl

/-- What stands after a quote in a guarded text is guarded. -/
theorem Guarded.of_quote {front back : List Char} (h : Guarded (front ++ '"' :: back)) :
    Guarded back := by
  rintro front' back' rfl
  obtain ⟨before, hf⟩ := h (front ++ '"' :: front') back' (by simp)
  rcases List.eq_nil_or_concat front' with rfl | ⟨front', c, rfl⟩
  · have := congrArg List.getLast? hf
    simp at this
  · have := congrArg List.getLast? hf
    simp only [List.concat_eq_append, ← List.cons_append, ← List.append_assoc,
      List.getLast?_append, List.getLast?_singleton, Option.some_or, Option.some.injEq] at this
    exact ⟨front', by rw [this, List.concat_eq_append]⟩

/-- The first quote or backslash of a text. -/
theorem exists_first (text : List Char) : ('"' ∉ text ∧ '\\' ∉ text) ∨
    ∃ front c back, text = front ++ c :: back ∧ (c = '"' ∨ c = '\\') ∧ '"' ∉ front ∧
      '\\' ∉ front := by
  induction text with
  | nil => exact .inl ⟨by simp, by simp⟩
  | cons x text ih =>
      by_cases hx : x = '"' ∨ x = '\\'
      · exact .inr ⟨[], x, text, rfl, hx, by simp, by simp⟩
      · rw [not_or] at hx
        rcases ih with ⟨hq, hb⟩ | ⟨front, c, back, rfl, hc, hq, hb⟩
        · exact .inl ⟨by simp [Ne.symm hx.1, hq], by simp [Ne.symm hx.2, hb]⟩
        · exact .inr ⟨x :: front, c, back, rfl, hc, by simp [Ne.symm hx.1, hq],
            by simp [Ne.symm hx.2, hb]⟩

/-- A guarded text and its closing quote, taken for structure, derail what follows. -/
theorem derailed_of_guarded {back rest : List Char} (hg : Guarded back) (hl : Lost rest) :
    Derailed (back ++ '"' :: rest) := by
  rcases exists_first back with ⟨hq, hb⟩ | ⟨front, c, back', rfl, rfl | rfl, hq, hb⟩
  · exact .quote hq hb hl
  · -- a quote in the text would have a backslash before it
    obtain ⟨front', rfl⟩ := hg front back' rfl
    simp at hb
  · rw [List.append_assoc]
    exact .backslash hq hb

/-! ### Reading derailed texts -/

section Parts

variable {value : Scan → Except Error (Json × Scan)}
  (hvalue : ∀ {s s' : Scan} {v : Json}, value s = .ok (v, s') → Derailed s.rest → Derailed s'.rest)

include hvalue

theorem readElements_derailed {bound : Nat} {first : Bool} {read : List Json} {s s' : Scan}
    {v : Json} (h : readElements value bound first read s = .ok (v, s')) (hd : Derailed s.rest) :
    Derailed s'.rest := by
  induction bound generalizing first read s with
  | zero => cases h
  | succ bound ih =>
      rcases readElements_cases h with ⟨-, hp⟩ | ⟨_, x, s₁, s₂, hb, hp, hx, h⟩
      · exact hd.of_plainly hp
      · cases hb
        exact ih h (hvalue hx (hd.of_plainly hp))

theorem readMembers_derailed {bound : Nat} {first : Bool} {read : Members} {s s' : Scan}
    {v : Json} (h : readMembers value bound first read s = .ok (v, s')) (hd : Derailed s.rest) :
    Derailed s'.rest := by
  induction bound generalizing first read s with
  | zero => cases h
  | succ bound ih =>
      rcases readMembers_cases h with ⟨-, hp⟩ | ⟨_, text, chars, rest, x, s₁, s₂, hb, hq, hs, hp, hx, h⟩
      · exact hd.of_plainly hp
      · cases hb
        have hkey : Derailed rest := (hd.of_plainly hq).of_spells hs
        exact ih h (hvalue hx (hkey.of_plainly hp))

end Parts

/-- Reading a value from a derailed text leaves a derailed text. -/
theorem readValue_derailed {depth : Nat} {s s' : Scan} {v : Json}
    (h : readValue depth s = .ok (v, s')) (hd : Derailed s.rest) : Derailed s'.rest := by
  induction depth generalizing s s' v with
  | zero =>
      rcases readValue_cases h with ⟨hp, -⟩ | ⟨text, chars, hp, hs, -⟩ | ⟨_, _, _, hz, _⟩ |
        ⟨_, _, _, hz, _⟩
      · exact hd.of_plainly hp
      · exact (hd.of_plainly hp).of_spells hs
      · cases hz
      · cases hz
  | succ depth ih =>
      rcases readValue_cases h with ⟨hp, -⟩ | ⟨text, chars, hp, hs, -⟩ | ⟨_, _, s₁, hz, hp, h⟩ |
        ⟨_, _, s₁, hz, hp, h⟩
      · exact hd.of_plainly hp
      · exact (hd.of_plainly hp).of_spells hs
      · cases hz
        exact readElements_derailed ih h (hd.of_plainly hp)
      · cases hz
        exact readMembers_derailed ih h (hd.of_plainly hp)

/-- What parsing does: it reads a value and then only blanks. -/
theorem exists_readValue_of_parseChars {text : List Char} {v : Json} (h : parseChars text = .ok v) :
    ∃ s, readValue maxDepth ⟨text, Position.origin⟩ = .ok (v, s) ∧ (skipBlanks s).rest = [] := by
  obtain ⟨⟨x, s⟩, hx, h⟩ := exists_of_bind_ok h
  dsimp only at h
  split at h
  · next he =>
    cases h
    exact ⟨s, hx, List.isEmpty_iff.1 he⟩
  · cases h

/-- What is left after the value of a document is not derailed. -/
theorem not_derailed_of_skipBlanks {s : Scan} (h : (skipBlanks s).rest = []) : ¬ Derailed s.rest := by
  intro hd
  have := hd.of_plainly (skipBlanks_plainly s)
  rw [h] at this
  exact not_derailed_nil this

end SchemaScope.Json
