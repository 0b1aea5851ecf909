/-
**How the text of a string is spelled.**

A string stands in a JSON document between quotes, one character after the other, and a character
can be spelled in several ways: as itself, by a one-letter escape, or by the number of its code.
This module describes the spellings apart from the reader of strings, and shows that the reader
accepts exactly them.

Main definitions:

* `Json.Glyph` — a text opens with a spelling of a character;
* `Json.Spells` — a text spells characters up to a closing quote.

Main results:

* `Json.readText_iff` — **the reader of strings accepts the spellings**, and nothing else;
* `Json.Glyph.append_cases` — a spelling that starts before a quote ends before it, unless the quote
  is the second half of an escape;
* `Json.Spells.append_cases` — how a spelling that starts before a quote can go on: it closes at the
  quote, at an earlier one, or reads past it;
* `Json.not_spells_of_newline` — no string runs over the end of a line.
-/

import Mathlib
import SchemaScope.Json.Reader

set_option autoImplicit false

namespace SchemaScope.Json

/-! ### Spellings -/

/-- The text opens with a spelling of the character, and the rest follows.  A code beyond the basic
plane is spelled by the two halves of a surrogate pair. -/
inductive Glyph : List Char → Char → List Char → Prop
  | plain {c : Char} {rest : List Char} : c ≠ '"' → c ≠ '\\' → 0x20 ≤ c.toNat →
      Glyph (c :: rest) c rest
  | simple {c d : Char} {rest : List Char} : simpleEscape? c = some d →
      Glyph ('\\' :: c :: rest) d rest
  | quad {a b c d : Char} {n : Nat} {rest : List Char} : hexQuad? a b c d = some n →
      (n < 0xD800 ∨ 0xDFFF < n) → Glyph ('\\' :: 'u' :: a :: b :: c :: d :: rest) (Char.ofNat n) rest
  | pair {a b c d e f g h : Char} {n m : Nat} {rest : List Char} : hexQuad? a b c d = some n →
      0xD800 ≤ n → n ≤ 0xDBFF → hexQuad? e f g h = some m → 0xDC00 ≤ m → m ≤ 0xDFFF →
      Glyph ('\\' :: 'u' :: a :: b :: c :: d :: '\\' :: 'u' :: e :: f :: g :: h :: rest)
        (Char.ofNat ((n - 0xD800) * 0x400 + (m - 0xDC00) + 0x10000)) rest

/-- The text spells the characters one after the other, then a quote closes the string and the rest
follows. -/
inductive Spells : List Char → List Char → List Char → Prop
  | close {rest : List Char} : Spells ('"' :: rest) [] rest
  | glyph {text mid rest chars : List Char} {c : Char} : Glyph text c mid → Spells mid chars rest →
      Spells text (c :: chars) rest

/-- Reading a string passes a spelling and keeps its character. -/
theorem Glyph.readText_eq {text rest : List Char} {c : Char} (h : Glyph text c rest)
    (read : List Char) (p : Position) : ∃ q, readText read p text = readText (c :: read) q rest := by
  cases h with
  | plain hq hb hc =>
      refine ⟨p.advance c, ?_⟩
      rw [readText, if_neg (by omega)]
      · exact hq
      · intro h; exact absurd h hb
      · intro _ _ _ _ _ h; exact absurd h hb
      · intro _ _ h; exact absurd h hb
  | @simple e d rest he =>
      refine ⟨p.advanceText ['\\', e], ?_⟩
      rw [readText, he]
      rintro _ _ _ _ _ rfl
      simp [simpleEscape?] at he
  | @quad a b c d n rest hn hs =>
      refine ⟨(p.advanceText ['\\', 'u']).advanceText [a, b, c, d], ?_⟩
      rw [readText, hn]
      simp only
      rw [if_neg (by omega), if_pos (by omega)]
  | @pair a b c d e f g k n m rest hn h₁ h₂ hm h₃ h₄ =>
      refine ⟨((p.advanceText ['\\', 'u']).advanceText [a, b, c, d]).advanceText
        ['\\', 'u', e, f, g, k], ?_⟩
      rw [readText, hn]
      simp only
      rw [if_neg (by omega), if_neg (by omega), hm]
      simp only
      rw [if_neg (by omega)]

/-- What is spelled is read, after the characters read so far. -/
theorem Spells.readText_eq {text chars rest : List Char} (h : Spells text chars rest) :
    ∀ (read : List Char) (p : Position),
      ∃ q, readText read p text = .ok (String.ofList (read.reverse ++ chars), ⟨rest, q⟩) := by
  induction h with
  | close => intro read p; exact ⟨p.advance '"', by simp [readText]⟩
  | @glyph text mid rest chars c hg _ ih =>
      intro read p
      obtain ⟨q, hq⟩ := hg.readText_eq read p
      obtain ⟨q', hq'⟩ := ih (c :: read) q
      exact ⟨q', by simpa [hq] using hq'⟩

/-- What is read is spelled. -/
theorem spells_of_readText {read text : List Char} {p : Position} {t : String} {s : Scan}
    (h : readText read p text = .ok (t, s)) :
    ∃ chars, t = String.ofList (read.reverse ++ chars) ∧ Spells text chars s.rest := by
  -- one case for each way in which the reader goes on; in the others it fails
  fun_induction readText read p text with
  | case2 read p cs =>
      simp only [Except.ok.injEq, Prod.mk.injEq] at h
      obtain ⟨rfl, rfl⟩ := h
      exact ⟨[], by simp, .close⟩
  | case6 read p a b c d cs start past n hn h₁ h₂ ih =>
      obtain ⟨chars, rfl, hs⟩ := ih h
      exact ⟨_ :: chars, by simp, .glyph (.quad hn (by omega)) hs⟩
  | case9 read p a b c d start past n hn h₁ h₂ e f g k rest m hm after h₃ code ih =>
      obtain ⟨chars, rfl, hs⟩ := ih h
      exact ⟨Char.ofNat code :: chars, by simp,
        .glyph (.pair hn (by omega) (by omega) hm (by omega) (by omega)) hs⟩
  | case11 read p c cs _ d hd ih =>
      obtain ⟨chars, rfl, hs⟩ := ih h
      exact ⟨_ :: chars, by simp, .glyph (.simple hd) hs⟩
  | case15 read p c cs hq hb₁ _ hb₂ hc ih =>
      obtain ⟨chars, rfl, hs⟩ := ih h
      -- a backslash would have been taken for an escape
      have hb : c ≠ '\\' := by
        rintro rfl
        cases cs with
        | nil => exact hb₁ rfl rfl
        | cons d cs => exact hb₂ d cs rfl rfl
      exact ⟨_ :: chars, by simp, .glyph (.plain hq hb (by omega)) hs⟩
  | _ => cases h

/-- **The reader of strings accepts the spellings**, and nothing else. -/
theorem readText_iff {text chars rest : List Char} {p : Position} :
    (∃ q, readText [] p text = .ok (String.ofList chars, ⟨rest, q⟩)) ↔ Spells text chars rest := by
  constructor
  · rintro ⟨q, h⟩
    obtain ⟨chars', he, hs⟩ := spells_of_readText h
    have : chars = chars' := by simpa using congrArg String.toList he
    rwa [this]
  · intro h
    simpa using h.readText_eq [] p

/-! ### Spellings before a quote -/

theorem hexValue?_quote : hexValue? '"' = none := by decide

/-- The four digits of a code are no quotes. -/
theorem hexQuad?_ne_quote {a b c d : Char} {n : Nat} (h : hexQuad? a b c d = some n) :
    a ≠ '"' ∧ b ≠ '"' ∧ c ≠ '"' ∧ d ≠ '"' := by
  refine ⟨?_, ?_, ?_, ?_⟩ <;> rintro rfl <;> simp [hexQuad?, hexValue?_quote] at h

/-- A spelling is what stands before the rest, and holds a quote only as an escaped one. -/
theorem Glyph.exists_front {text rest : List Char} {c : Char} (h : Glyph text c rest) :
    ∃ front, text = front ++ rest ∧ ('"' ∉ front ∨ front = ['\\', '"']) := by
  cases h with
  | plain hq _ _ => exact ⟨[c], rfl, .inl (by simpa using hq.symm)⟩
  | @simple d _ _ _ =>
      refine ⟨['\\', d], rfl, ?_⟩
      by_cases hd : d = '"'
      · exact .inr (by rw [hd])
      · exact .inl (by simpa using Ne.symm hd)
  | @quad a b c d _ _ hn _ =>
      have hd := hexQuad?_ne_quote hn
      exact ⟨['\\', 'u', a, b, c, d], rfl, .inl (by simp [hd, eq_comm])⟩
  | @pair a b c d e f g k _ _ _ hn _ _ hm _ _ =>
      have hd := hexQuad?_ne_quote hn
      have he := hexQuad?_ne_quote hm
      exact ⟨['\\', 'u', a, b, c, d, '\\', 'u', e, f, g, k], rfl, .inl (by simp [hd, he, eq_comm])⟩

/-- What is spelled ends with a quote. -/
theorem Spells.exists_front {text chars rest : List Char} (h : Spells text chars rest) :
    ∃ front, text = front ++ '"' :: rest := by
  induction h with
  | close => exact ⟨[], rfl⟩
  | glyph hg _ ih =>
      obtain ⟨front, hf, -⟩ := hg.exists_front
      obtain ⟨front', rfl⟩ := ih
      exact ⟨front ++ front', by simp [hf]⟩

/-- A spelling that starts before a quote ends before it, unless a backslash stands right before the
quote and the two make an escape. -/
theorem Glyph.append_cases {text rest mid : List Char} {c : Char}
    (h : Glyph (text ++ '"' :: rest) c mid) :
    (∃ front back, text = front ++ back ∧ mid = back ++ '"' :: rest) ∨ mid = rest := by
  obtain ⟨front, hw, hf⟩ := h.exists_front
  rcases List.append_eq_append_iff.1 hw with ⟨excess, rfl, ho⟩ | ⟨back, rfl, hm⟩
  · -- the spelling reaches the quote: it stops right before it, or it is the escape of the quote
    rcases excess with _ | ⟨x, excess⟩
    · exact .inl ⟨text, [], by simp, by simpa using ho.symm⟩
    · simp only [List.cons_append, List.cons.injEq] at ho
      obtain ⟨rfl, rfl⟩ := ho
      rcases hf with hf | hf
      · simp at hf
      · have : excess = [] := by
          have := congrArg List.length hf
          rcases text with _ | ⟨y, text⟩
          · simp at hf
          · simp at this
            exact List.eq_nil_of_length_eq_zero (by omega)
        exact .inr (by simp [this])
  · exact .inl ⟨front, back, rfl, hm⟩

/-- A string that starts before a quote closes at the quote, closes at an earlier one, or reads past
it. -/
theorem Spells.append_cases {text rest chars rest' : List Char}
    (h : Spells (text ++ '"' :: rest) chars rest') :
    rest' = rest ∨ (∃ front back, text = front ++ '"' :: back ∧ rest' = back ++ '"' :: rest) ∨
      ∃ chars', Spells rest chars' rest' := by
  generalize hw : text ++ '"' :: rest = whole at h
  induction h generalizing text with
  | close =>
      rcases text with _ | ⟨x, text⟩
      · simp at hw; exact .inl hw.symm
      · simp at hw; exact .inr (.inl ⟨[], text, by simp [hw.1], hw.2.symm⟩)
  | @glyph whole mid rest' chars c hg hs ih =>
      subst hw
      -- a spelling that takes the quote with it leaves the string to be read from what follows
      rcases hg.append_cases with ⟨front, back, rfl, rfl⟩ | rfl
      · rcases ih rfl with h | ⟨front', back', rfl, h⟩ | h
        · exact .inl h
        · exact .inr (.inl ⟨front ++ front', back', by simp, h⟩)
        · exact .inr (.inr h)
      · exact .inr (.inr ⟨chars, hs⟩)

/-- A spelling whose first character is neither a quote nor a backslash is that character. -/
theorem Glyph.of_plain {text mid : List Char} {x c : Char} (hb : x ≠ '\\')
    (h : Glyph (x :: text) c mid) : 0x20 ≤ x.toNat ∧ mid = text := by
  cases h with
  | plain _ _ hc => exact ⟨hc, rfl⟩
  | simple _ => exact absurd rfl hb
  | quad _ _ => exact absurd rfl hb
  | pair _ _ _ _ _ _ => exact absurd rfl hb

/-- A string whose first character is neither a quote nor a backslash goes on after it. -/
theorem Spells.of_plain {text chars rest : List Char} {x : Char} (hq : x ≠ '"') (hb : x ≠ '\\')
    (h : Spells (x :: text) chars rest) : ∃ chars', Spells text chars' rest := by
  cases h with
  | close => exact absurd rfl hq
  | glyph hg hs =>
      obtain ⟨-, rfl⟩ := hg.of_plain hb
      exact ⟨_, hs⟩

/-- A string that opens with a quote is closed by it. -/
theorem Spells.of_quote {text chars rest : List Char} (h : Spells ('"' :: text) chars rest) :
    rest = text := by
  cases h with
  | close => rfl
  | glyph hg _ =>
      cases hg with
      | plain hq _ _ => exact absurd rfl hq

/-- No string runs over the end of a line. -/
theorem not_spells_of_newline {text rest chars rest' : List Char} (hq : '"' ∉ text)
    (hb : '\\' ∉ text) : ¬ Spells (text ++ '\n' :: rest) chars rest' := by
  induction text generalizing chars with
  | nil =>
      rintro (_ | ⟨hg, _⟩)
      simpa using (hg.of_plain (by decide)).1
  | cons c text ih =>
      simp only [List.mem_cons, not_or] at hq hb
      rintro (_ | ⟨hg, hs⟩)
      · exact hq.1 rfl
      · obtain ⟨_, rfl⟩ := hg.of_plain (Ne.symm hb.1)
        exact ih hq.2 hb.2 hs

end SchemaScope.Json
