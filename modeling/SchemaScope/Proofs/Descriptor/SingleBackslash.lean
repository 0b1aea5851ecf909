/-
**Texts with single backslashes.**

A descriptor is written with every pair of backslashes made single.  Outside of strings this changes
nothing, and a string keeps the escapes of its quotes and control characters; but a backslash of the
string itself then stands alone, and takes the character after it for an escape.  A string can
therefore be read back as it was exactly if it holds no backslash.

Main definitions:

* `Descriptor.writtenChar`, `Descriptor.writtenText` — characters as they stand between the quotes
  of a descriptor.

Main results:

* `Descriptor.undouble_append`, `Descriptor.undouble_quote_append` — what undoubling does to a text
  without backslashes and to a quoted one;
* `Descriptor.spells_writtenText` — a string without backslashes is read back;
* `Descriptor.not_mem_of_spells_writtenText` — **a string that is read back as it was holds no
  backslash**.
-/

import SchemaScope.Descriptor
import SchemaScope.Proofs.Json.Spelling

set_option autoImplicit false

namespace SchemaScope.Descriptor

open Json

/-! ### Undoubling -/

theorem undouble_cons {c : Char} (h : c ≠ '\\') (rest : List Char) :
    undouble (c :: rest) = c :: undouble rest := by
  rw [undouble]
  intro _ hc
  exact absurd hc h

theorem undouble_backslash {c : Char} (h : c ≠ '\\') (rest : List Char) :
    undouble ('\\' :: c :: rest) = '\\' :: c :: undouble rest := by
  rw [undouble, undouble_cons h]
  intro _ _ hc
  cases hc
  exact h rfl

/-- A text without backslashes stays as it is. -/
theorem undouble_append {text : List Char} (h : '\\' ∉ text) (rest : List Char) :
    undouble (text ++ rest) = text ++ undouble rest := by
  induction text with
  | nil => rfl
  | cons c text ih =>
      simp only [List.mem_cons, not_or] at h
      rw [List.cons_append, undouble_cons (Ne.symm h.1), ih h.2, List.cons_append]

/-! ### Characters between quotes -/

/-- The three shapes of a character between quotes: a doubled backslash, the character itself, and
an escape whose letter is no backslash. -/
theorem escapeChar_cases (c : Char) :
    c = '\\' ∨ (escapeChar c = [c] ∧ c ≠ '\\' ∧ c ≠ '"' ∧ 0x20 ≤ c.toNat) ∨
      ∃ x xs, escapeChar c = '\\' :: x :: xs ∧ x ≠ '\\' ∧ '\\' ∉ xs := by
  by_cases hb : c = '\\'
  · exact .inl hb
  · right
    unfold escapeChar
    split
    case h_2 => exact absurd rfl hb
    case h_8 =>
      -- a control character is written with digits, any other character as itself
      split
      · next h =>
        right
        have hex : ∀ n < 32, '\\' ∉ ['0', '0', hexDigit (n / 16), hexDigit (n % 16)] := by decide
        exact ⟨'u', _, rfl, by decide, hex _ h⟩
      · next hq _ _ _ _ _ _ h => exact .inl ⟨rfl, hb, hq, by omega⟩
    all_goals exact .inr ⟨_, [], rfl, by decide, by simp⟩

theorem escapeChar_of_plain {c : Char} (hq : c ≠ '"') (hb : c ≠ '\\') (hc : 0x20 ≤ c.toNat) :
    escapeChar c = [c] := by
  unfold escapeChar
  split <;> simp_all

/-- A character as it stands between the quotes of a descriptor. -/
def writtenChar (c : Char) : List Char := undouble (escapeChar c)

/-- Characters as they stand between the quotes of a descriptor. -/
def writtenText (text : List Char) : List Char := text.flatMap writtenChar

@[simp] theorem writtenText_nil : writtenText [] = [] := rfl

@[simp] theorem writtenText_cons (c : Char) (text : List Char) :
    writtenText (c :: text) = writtenChar c ++ writtenText text := rfl

@[simp] theorem writtenChar_backslash : writtenChar '\\' = ['\\'] := by decide

theorem writtenChar_eq {c : Char} (h : c ≠ '\\') : writtenChar c = escapeChar c := by
  rcases escapeChar_cases c with hc | ⟨he, hb, -⟩ | ⟨x, xs, he, hx, hxs⟩
  · exact absurd hc h
  · rw [writtenChar, he, undouble_cons hb, undouble]
  · have := undouble_append hxs []
    simp only [List.append_nil, undouble] at this
    rw [writtenChar, he, undouble_backslash hx, this]

theorem undouble_escapeChar_append (c : Char) (rest : List Char) :
    undouble (escapeChar c ++ rest) = writtenChar c ++ undouble rest := by
  by_cases h : c = '\\'
  · subst h
    rfl
  · rw [writtenChar_eq h]
    rcases escapeChar_cases c with hc | ⟨he, hb, -⟩ | ⟨x, xs, he, hx, hxs⟩
    · exact absurd hc h
    · rw [he]
      exact undouble_cons hb rest
    · rw [he]
      simp [undouble_backslash hx, undouble_append hxs]

theorem undouble_escape_append (text rest : List Char) :
    undouble (escape text ++ rest) = writtenText text ++ undouble rest := by
  induction text with
  | nil => rfl
  | cons c text ih =>
      have : escape (c :: text) = escapeChar c ++ escape text := rfl
      rw [this, List.append_assoc, undouble_escapeChar_append, ih, writtenText_cons,
        List.append_assoc]

/-- A quoted text keeps its quotes. -/
theorem undouble_quote_append (text : String) (rest : List Char) :
    undouble (quote text ++ rest) = '"' :: (writtenText text.toList ++ '"' :: undouble rest) := by
  simp only [quote, List.cons_append, List.append_assoc, List.nil_append]
  rw [undouble_cons (by decide), undouble_escape_append, undouble_cons (by decide)]

/-! ### Reading back -/

/-- A character other than a backslash is read back. -/
theorem glyph_writtenChar {c : Char} (h : c ≠ '\\') (rest : List Char) :
    Glyph (writtenChar c ++ rest) c rest := by
  rw [writtenChar_eq h]
  unfold escapeChar
  split
  case h_2 => exact absurd rfl h
  case h_8 =>
    split
    · next hc =>
      have hex : ∀ n < 32, hexQuad? '0' '0' (hexDigit (n / 16)) (hexDigit (n % 16)) = some n := by
        decide
      have hg : Glyph _ (Char.ofNat c.toNat) rest := .quad (hex _ hc) (by omega)
      rwa [Char.ofNat_toNat] at hg
    · next hq _ _ _ _ _ _ hc => exact .plain hq h (by omega)
  all_goals exact .simple rfl

/-- A string without backslashes is read back. -/
theorem spells_writtenText {text : List Char} (h : '\\' ∉ text) (rest : List Char) :
    Spells (writtenText text ++ '"' :: rest) text rest := by
  induction text with
  | nil => exact .close
  | cons c text ih =>
      simp only [List.mem_cons, not_or] at h
      rw [writtenText_cons, List.append_assoc]
      exact .glyph (glyph_writtenChar (Ne.symm h.1) _) (ih h.2)

theorem length_writtenChar_le (c : Char) :
    (writtenChar c).length + (if c = '\\' then 1 else 0) ≤ 6 := by
  by_cases h : c = '\\'
  · subst h
    simp
  · rw [writtenChar_eq h, if_neg h]
    unfold escapeChar
    split <;> first | split <;> simp | simp

/-- A spelling is at least as long as what a descriptor holds for its character, and longer if the
character is a backslash. -/
theorem length_le_of_glyph {text rest : List Char} {c : Char} (h : Glyph text c rest) :
    (writtenChar c).length + rest.length + (if c = '\\' then 1 else 0) ≤ text.length := by
  -- an escape with digits takes six characters, which is as long as anything that is written
  have hc := length_writtenChar_le c
  cases h with
  | plain hq hb hc =>
      simp [writtenChar_eq hb, escapeChar_of_plain hq hb hc, hb]
      omega
  | simple he =>
      have : (writtenChar c).length + (if c = '\\' then 1 else 0) ≤ 2 := by
        unfold simpleEscape? at he
        split at he <;> simp at he <;> subst he <;> decide
      simp only [List.length_cons]
      omega
  | quad _ _ =>
      simp only [List.length_cons]
      omega
  | pair _ _ _ _ _ _ =>
      simp only [List.length_cons]
      omega

/-- A string takes at least the room that a descriptor has for it, and more for every backslash. -/
theorem length_lt_of_spells {text chars rest : List Char} (h : Spells text chars rest) :
    (writtenText chars).length + rest.length + chars.count '\\' < text.length := by
  induction h with
  | close => simp
  | glyph hg _ ih =>
      have := length_le_of_glyph hg
      simp only [writtenText_cons, List.length_append, List.count_cons, beq_iff_eq]
      omega

/-- **A string that is read back as it was holds no backslash.** -/
theorem not_mem_of_spells_writtenText {text rest : List Char}
    (h : Spells (writtenText text ++ '"' :: rest) text rest) : '\\' ∉ text := by
  -- there is room for the text as it was written, and for no backslash beside it
  have := length_lt_of_spells h
  simp only [List.length_append, List.length_cons] at this
  exact List.count_eq_zero.1 (by omega)

end SchemaScope.Descriptor
