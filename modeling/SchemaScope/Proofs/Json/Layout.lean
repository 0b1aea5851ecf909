/-
**Reading values that are laid out in lines.**

The steps of the readers over a text whose parts are known: blanks before a part are passed, and
then the part decides how the reading goes on.  Nothing is said here about where the text comes
from.

Main definitions:

* `Json.Blank` — a text of blanks;
* `Json.EndsLine` — what stands after a value that is laid out.

Main results:

* `Json.readElements_first`, `Json.readElements_next`, `Json.readElements_end` — a list;
* `Json.readMembers_first`, `Json.readMembers_next`, `Json.readMembers_end` — an object;
* `Json.readMember_eq` — a member whose key is spelled;
* `Json.readValue_bare` — **a value that is written without quotes and brackets is read back**, a
  double as some double.
-/

import SchemaScope.Proofs.Json.Sound
import SchemaScope.Proofs.Json.Texts

set_option autoImplicit false

namespace SchemaScope.Json

/-! ### Blanks -/

/-- The text is made of blanks. -/
def Blank (text : List Char) : Prop := ∀ c ∈ text, isBlank c = true

theorem blank_nil : Blank [] := by simp [Blank]

theorem blank_newline (level : Nat) : Blank (newline level) := by
  intro c hc
  rcases List.mem_cons.1 hc with rfl | hc
  · rfl
  · rw [List.eq_of_mem_replicate hc]
    rfl

/-- Blanks before a character that is none are passed. -/
theorem skipBlanks_append {blanks : List Char} (hb : Blank blanks) {c : Char}
    (hc : isBlank c = false) (cs : List Char) (p : Position) :
    ∃ q, skipBlanks ⟨blanks ++ c :: cs, p⟩ = ⟨c :: cs, q⟩ := by
  have htake : (blanks ++ c :: cs).takeWhile isBlank = blanks := by
    rw [List.takeWhile_append_of_pos hb, List.takeWhile_cons_of_neg (by simp [hc]),
      List.append_nil]
  refine ⟨p.advanceText ((blanks ++ c :: cs).take blanks.length), ?_⟩
  simp only [skipBlanks, Scan.skip, htake, List.drop_left]

/-- What stands after a value that is laid out: nothing, or the end of its line. -/
def EndsLine (tail : List Char) : Prop :=
  tail = [] ∨ (∃ rest, tail = '\n' :: rest) ∨ ∃ rest, tail = ',' :: '\n' :: rest

theorem EndsLine.endsValue {tail : List Char} (h : EndsLine tail) : EndsValue tail := by
  rcases h with rfl | ⟨rest, rfl⟩ | ⟨rest, rfl⟩ <;> simp [EndsValue]

theorem endsLine_newline (level : Nat) (rest : List Char) : EndsLine (newline level ++ rest) :=
  .inr (.inl ⟨_, rfl⟩)

theorem endsLine_comma (level : Nat) (rest : List Char) :
    EndsLine (',' :: (newline level ++ rest)) := .inr (.inr ⟨_, rfl⟩)

/-- No string is read from a text without quotes and backslashes that comes to the end of its line. -/
theorem not_spells_of_endsLine {text rest chars rest' : List Char} (hq : '"' ∉ text)
    (hb : '\\' ∉ text) (hr : EndsLine rest) : ¬ Spells (text ++ rest) chars rest' := by
  rcases hr with rfl | ⟨rest, rfl⟩ | ⟨rest, rfl⟩
  · intro h
    obtain ⟨front, hf⟩ := h.exists_front
    exact hq (by simp only [List.append_nil] at hf; simp [hf])
  · exact not_spells_of_newline hq hb
  · have := @not_spells_of_newline (text ++ [',']) rest chars rest' (by simp [hq]) (by simp [hb])
    simpa using this

/-! ### Lists -/

section Parts

variable (value : Scan → Except Error (Json × Scan)) (bound : Nat) {blanks : List Char}
  (hb : Blank blanks) {c : Char} (hc : isBlank c = false) (cs : List Char) (p : Position)

include hb

theorem readElements_end (first : Bool) (read : List Json) :
    ∃ q, readElements value (bound + 1) first read ⟨blanks ++ ']' :: cs, p⟩ =
      .ok (.array read.reverse, ⟨cs, q⟩) := by
  obtain ⟨q, hq⟩ := skipBlanks_append hb (by decide : isBlank ']' = false) cs p
  refine ⟨q.advance ']', ?_⟩
  rw [readElements]
  simp only [hq]
  rfl

include hc

theorem readElements_first (hne : c ≠ ']') (read : List Json) :
    ∃ q, readElements value (bound + 1) true read ⟨blanks ++ c :: cs, p⟩ =
      value ⟨c :: cs, q⟩ >>= fun r => readElements value bound false (r.1 :: read) r.2 := by
  obtain ⟨q, hq⟩ := skipBlanks_append hb hc cs p
  refine ⟨q, ?_⟩
  rw [readElements]
  simp only [hq, if_true]

theorem readElements_next (hne : c ≠ ']') (read : List Json) :
    ∃ q, readElements value (bound + 1) false read ⟨',' :: (blanks ++ c :: cs), p⟩ =
      value ⟨c :: cs, q⟩ >>= fun r => readElements value bound false (r.1 :: read) r.2 := by
  obtain ⟨q, hq⟩ := skipBlanks_append blank_nil (by decide : isBlank ',' = false)
    (blanks ++ c :: cs) p
  obtain ⟨q', hq'⟩ := skipBlanks_append hb hc cs (q.advance ',')
  refine ⟨q', ?_⟩
  rw [List.nil_append] at hq
  rw [readElements]
  simp only [hq, Scan.next, hq']
  split
  · next h => cases h
  · next h => simp at h
  · next h =>
    cases h
    simp only [Bool.false_eq_true, if_false, ne_eq, not_true_eq_false]
    -- behind the comma a bracket would be an error
    split
    · next h => cases h
    · next h => exact absurd (List.cons.inj h).1 hne
    · rfl

end Parts

/-! ### Objects -/

section Parts

variable (value : Scan → Except Error (Json × Scan)) (bound : Nat) {blanks : List Char}
  (hb : Blank blanks) (cs : List Char) (p : Position) (read : Members)

include hb

theorem readMembers_end (first : Bool) :
    ∃ q, readMembers value (bound + 1) first read ⟨blanks ++ '\x7d' :: cs, p⟩ =
      .ok (.object read, ⟨cs, q⟩) := by
  obtain ⟨q, hq⟩ := skipBlanks_append hb (by decide : isBlank '\x7d' = false) cs p
  refine ⟨q.advance '\x7d', ?_⟩
  rw [readMembers]
  simp only [hq]
  rfl

theorem readMembers_first :
    ∃ q, readMembers value (bound + 1) true read ⟨blanks ++ '"' :: cs, p⟩ =
      readMember value ⟨'"' :: cs, q⟩ >>= fun r =>
        readMembers value bound false (read.put r.1.1 r.1.2) r.2 := by
  obtain ⟨q, hq⟩ := skipBlanks_append hb (by decide : isBlank '"' = false) cs p
  refine ⟨q, ?_⟩
  rw [readMembers]
  simp only [hq]
  rfl

theorem readMembers_next :
    ∃ q, readMembers value (bound + 1) false read ⟨',' :: (blanks ++ '"' :: cs), p⟩ =
      readMember value ⟨'"' :: cs, q⟩ >>= fun r =>
        readMembers value bound false (read.put r.1.1 r.1.2) r.2 := by
  obtain ⟨q, hq⟩ := skipBlanks_append blank_nil (by decide : isBlank ',' = false)
    (blanks ++ '"' :: cs) p
  obtain ⟨q', hq'⟩ := skipBlanks_append hb (by decide : isBlank '"' = false) cs (q.advance ',')
  refine ⟨q', ?_⟩
  rw [List.nil_append] at hq
  rw [readMembers]
  simp only [hq, Scan.next, hq']
  rfl

omit hb in
/-- A member whose key is spelled and followed by a colon. -/
theorem readMember_eq {text chars rest : List Char} (h : Spells text chars (':' :: rest)) :
    ∃ q, readMember value ⟨'"' :: text, p⟩ =
      value ⟨rest, q⟩ >>= fun r => .ok ((String.ofList chars, r.1), r.2) := by
  obtain ⟨q, hq⟩ := h.readText_eq [] (p.advance '"')
  obtain ⟨q', hq'⟩ := skipBlanks_append blank_nil (by decide : isBlank ':' = false) rest q
  refine ⟨q'.advance ':', ?_⟩
  rw [List.nil_append] at hq'
  rw [readMember]
  simp only [Scan.next, hq, List.reverse_nil, List.nil_append, bind, Except.bind, hq']
  rfl

end Parts

/-! ### How a value is entered -/

theorem skipBlanks_of_not_blank {c : Char} (hc : isBlank c = false) (cs : List Char)
    (p : Position) : skipBlanks ⟨c :: cs, p⟩ = ⟨c :: cs, p⟩ := by
  have htake : (c :: cs).takeWhile isBlank = [] := List.takeWhile_cons_of_neg (by simp [hc])
  simp only [skipBlanks, Scan.skip, htake, List.length_nil, List.drop_zero, List.take_zero]
  rfl

/-- A blank before a value is passed. -/
theorem readValue_blank {c : Char} (hc : isBlank c = false) (depth : Nat) (cs : List Char)
    (p : Position) : ∃ q, readValue depth ⟨' ' :: c :: cs, p⟩ = readValue depth ⟨c :: cs, q⟩ := by
  obtain ⟨q, hq⟩ := skipBlanks_append (by simp [Blank, isBlank] : Blank [' ']) hc cs p
  rw [List.cons_append, List.nil_append] at hq
  refine ⟨q, ?_⟩
  rw [readValue.eq_def, readValue.eq_def depth ⟨c :: cs, q⟩]
  simp only [hq, skipBlanks_of_not_blank hc]

theorem readValue_list (depth : Nat) (cs : List Char) (p : Position) :
    readValue (depth + 1) ⟨'[' :: cs, p⟩ =
      readElements (readValue depth) (cs.length + 1) true [] ⟨cs, p.advance '['⟩ := by
  rw [readValue.eq_def]
  dsimp only
  rw [skipBlanks_of_not_blank (by decide)]
  rfl

theorem readValue_object (depth : Nat) (cs : List Char) (p : Position) :
    readValue (depth + 1) ⟨'\x7b' :: cs, p⟩ =
      readMembers (readValue depth) (cs.length + 1) true [] ⟨cs, p.advance '\x7b'⟩ := by
  rw [readValue.eq_def]
  dsimp only
  rw [skipBlanks_of_not_blank (by decide)]
  rfl

theorem readValue_quote {text chars rest : List Char} (h : Spells text chars rest) (depth : Nat)
    (p : Position) :
    ∃ q, readValue depth ⟨'"' :: text, p⟩ = .ok (.string (String.ofList chars), ⟨rest, q⟩) := by
  obtain ⟨q, hq⟩ := h.readText_eq [] (p.advance '"')
  refine ⟨q, ?_⟩
  rw [readValue.eq_def]
  dsimp only
  rw [skipBlanks_of_not_blank (by decide)]
  simp only [Scan.next, hq]
  rfl

theorem spells_of_readValue {text : List Char} {depth : Nat} {p : Position} {v : Json} {s : Scan}
    (h : readValue depth ⟨'"' :: text, p⟩ = .ok (v, s)) :
    ∃ chars, v = .string (String.ofList chars) ∧ Spells text chars s.rest := by
  rw [readValue.eq_def] at h
  dsimp only at h
  rw [skipBlanks_of_not_blank (by decide)] at h
  obtain ⟨⟨t, s'⟩, ht, h⟩ := exists_of_bind_ok h
  cases h
  obtain ⟨chars, rfl, hs⟩ := spells_of_readText ht
  exact ⟨chars, by simp, hs⟩

/-! ### Words and numbers -/

/-- Whether a value is written without quotes and brackets. -/
def isBare : Json → Bool
  | .null | .bool _ | .integer _ | .double _ => true
  | .string _ | .array _ | .object _ => false

/-- Among bare values, being alike does not depend on texts. -/
theorem Alike.of_bare {R S : String → String → Prop} {v w w' : Json} (hv : v.isBare = true)
    (h : Alike R v w) (h' : Alike S v w') : Alike Eq w' w := by
  cases h' with
  | null => cases h; exact .null
  | bool => cases h; exact .bool
  | integer => cases h; exact .integer
  | double => cases h; exact .double
  | string _ => cases hv
  | array _ => cases hv
  | object _ _ => cases hv

theorem toDigits_eq_cons (n : Nat) :
    ∃ c cs, Nat.toDigits 10 n = c :: cs ∧ c.isDigit = true ∧ AreDigits cs := by
  obtain ⟨c, cs, h⟩ := List.exists_cons_of_ne_nil (Nat.toDigits_ne_nil (b := 10) (n := n))
  have hd := areDigits_toDigits n
  rw [h] at hd
  exact ⟨c, cs, h, hd c (by simp), fun d hd' => hd d (by simp [hd'])⟩

/-- The characters of numbers. -/
def isNumberChar (c : Char) : Bool := c.isDigit || c ∈ ['.', 'e', '-', '+']

theorem isNumberChar_of_isDigit {c : Char} (h : c.isDigit = true) : isNumberChar c = true := by
  simp [isNumberChar, h]

/-- A bare text is a word, or made of the characters of numbers. -/
theorem scalarText_cases {v : Json} (hv : v.isBare = true) :
    scalarText v ∈ [['n', 'u', 'l', 'l'], ['t', 'r', 'u', 'e'], ['f', 'a', 'l', 's', 'e']] ∨
      scalarText v ≠ [] ∧ ∀ c ∈ scalarText v, isNumberChar c = true := by
  cases v with
  | null => exact .inl (by simp [scalarText])
  | bool b => cases b <;> exact .inl (by simp [scalarText])
  | integer n =>
      have hd : ∀ c ∈ Nat.toDigits 10 n.natAbs, isNumberChar c = true := fun c hc =>
        isNumberChar_of_isDigit (areDigits_toDigits _ c hc)
      right
      simp only [scalarText, integerText]
      split
      · exact ⟨by simp, List.forall_mem_cons.2 ⟨by decide, hd⟩⟩
      · exact ⟨Nat.toDigits_ne_nil, hd⟩
  | double x =>
      cases x with
      | infinite _ => exact .inl (by simp [scalarText, DoubleFormat.write])
      | finite negative m e =>
          obtain ⟨⟨c, cs, hcs, -⟩, hall⟩ := magnitudeText_chars m e
          have hd : ∀ c ∈ magnitudeText m e, isNumberChar c = true := by
            intro c hc
            simpa [isNumberChar] using hall c hc
          right
          simp only [scalarText, write_finite]
          refine ⟨by simp [hcs], ?_⟩
          intro c hc
          rcases List.mem_append.1 hc with h | h
          · cases negative <;> simp at h
            subst h
            decide
          · exact hd c h
  | string _ => cases hv
  | array _ => cases hv
  | object _ => cases hv

/-- A bare text holds no quote and no backslash. -/
theorem scalarText_plain {v : Json} (hv : v.isBare = true) :
    '"' ∉ scalarText v ∧ '\\' ∉ scalarText v := by
  rcases scalarText_cases hv with h | ⟨-, h⟩
  · revert h
    generalize scalarText v = text
    revert text
    decide
  · exact ⟨fun hm => absurd (h _ hm) (by decide), fun hm => absurd (h _ hm) (by decide)⟩

/-- A bare text begins with a character that is no blank and no bracket. -/
theorem scalarText_opens {v : Json} (hv : v.isBare = true) :
    ∃ c cs, scalarText v = c :: cs ∧ isBlank c = false ∧ c ≠ ']' := by
  rcases scalarText_cases hv with h | ⟨hne, h⟩
  · simp only [List.mem_cons, List.not_mem_nil, or_false] at h
    rcases h with h | h | h <;> exact ⟨_, _, h, by decide, by decide⟩
  · obtain ⟨c, cs, hcs⟩ := List.exists_cons_of_ne_nil hne
    have hc := h c (by simp [hcs])
    refine ⟨c, cs, hcs, ?_, ?_⟩
    · rw [Bool.eq_false_iff]
      intro hb
      simp only [isBlank, Bool.or_eq_true, beq_iff_eq] at hb
      rcases hb with ((rfl | rfl) | rfl) | rfl <;> exact absurd hc (by decide)
    · rintro rfl
      exact absurd hc (by decide)

/-- A word of the format is read as its value. -/
theorem readWord_append (value : Json) (word tail : List Char) (p : Position) :
    ∃ q, readWord value word ⟨word ++ tail, p⟩ = .ok (value, ⟨tail, q⟩) := by
  induction word generalizing p with
  | nil => exact ⟨p, rfl⟩
  | cons c word ih =>
      obtain ⟨q, hq⟩ := ih (p.advance c)
      exact ⟨q, by simpa [readWord, Scan.next] using hq⟩

theorem readValue_minus (depth : Nat) (cs : List Char) (p : Position) :
    readValue depth ⟨'-' :: cs, p⟩ = readNumber true ⟨cs, p.advance '-'⟩ := by
  rw [readValue.eq_def]
  dsimp only
  rw [skipBlanks_of_not_blank (by decide)]
  rfl

theorem readValue_digit {c : Char} (hc : c.isDigit = true) (depth : Nat) (cs : List Char)
    (p : Position) : readValue depth ⟨c :: cs, p⟩ = readNumber false ⟨c :: cs, p⟩ := by
  have hne : ∀ d : Char, d.isDigit = false → c ≠ d := by
    rintro d hd rfl
    simp [hd] at hc
  have hb : isBlank c = false := by
    simp [isBlank, hne ' ' rfl, hne '\n' rfl, hne '\t' rfl, hne '\r' rfl]
  rw [readValue.eq_def]
  dsimp only
  rw [skipBlanks_of_not_blank hb]
  -- every other form opens with a character that is no digit
  split
  · next h => cases h
  · next h => exact absurd (List.cons.inj h).1 (hne _ rfl)
  · next h => exact absurd (List.cons.inj h).1 (hne _ rfl)
  · next h => exact absurd (List.cons.inj h).1 (hne _ rfl)
  · next h => exact absurd (List.cons.inj h).1 (hne _ rfl)
  · next h => exact absurd (List.cons.inj h).1 (hne _ rfl)
  · next h => exact absurd (List.cons.inj h).1 (hne _ rfl)
  · next h => exact absurd (List.cons.inj h).1 (hne _ rfl)
  · next h =>
    cases h
    rw [if_pos hc]

/-- A word is told by its first character. -/
theorem readValue_word {v : Json} (hv : v = .null ∨ ∃ b, v = .bool b) (depth : Nat)
    (tail : List Char) (p : Position) :
    ∃ q, readValue depth ⟨scalarText v ++ tail, p⟩ = .ok (v, ⟨tail, q⟩) := by
  rcases hv with rfl | ⟨_ | _, rfl⟩
  all_goals
    rw [scalarText, List.cons_append, readValue.eq_def]
    dsimp only
    rw [skipBlanks_of_not_blank (by decide)]
    exact readWord_append _ _ _ _

/-- **A value that is written without quotes and brackets is read back**, a double as some
double. -/
theorem readValue_bare {v : Json} {depth : Nat} (hs : Sound depth v) (hv : v.isBare = true)
    {tail : List Char} (ht : EndsValue tail) (depth' : Nat) (p : Position) :
    ∃ w q, readValue depth' ⟨scalarText v ++ tail, p⟩ = .ok (w, ⟨tail, q⟩) ∧
      ∀ R, Alike R v w := by
  cases hs with
  | null =>
      obtain ⟨q, hq⟩ := readValue_word (.inl rfl) depth' tail p
      exact ⟨.null, q, hq, fun _ => .null⟩
  | @bool _ b =>
      obtain ⟨q, hq⟩ := readValue_word (.inr ⟨b, rfl⟩) depth' tail p
      exact ⟨.bool b, q, hq, fun _ => .bool⟩
  | @integer _ n hlow hhigh =>
      -- the sign decides which of the two readers of integers takes the digits
      simp only [scalarText, integerText]
      split
      · next hn =>
        obtain ⟨q, hq⟩ := readNumber_negative (n := n.natAbs) (by omega) (by omega) ht
          (p.advance '-')
        refine ⟨.integer n, q, ?_, fun _ => .integer⟩
        have hval : -((n.natAbs : ℕ) : ℤ) = n := by omega
        rw [List.cons_append, readValue_minus, hq, hval]
      · next hn =>
        obtain ⟨c, cs, hcs, hc, -⟩ := toDigits_eq_cons n.natAbs
        obtain ⟨q, hq⟩ := readNumber_toDigits (n := n.natAbs) (by omega) ht p
        refine ⟨.integer n, q, ?_, fun _ => .integer⟩
        have hval : ((n.natAbs : ℕ) : ℤ) = n := by omega
        rw [hcs, List.cons_append] at hq ⊢
        rw [readValue_digit hc, hq, hval]
  | @double _ x hx =>
      cases x with
      | infinite _ => exact absurd hx id
      | finite negative m e =>
          have hr : (Binary64.finite false m e).InRange := hx
          simp only [scalarText, write_finite]
          cases negative with
          | true =>
              obtain ⟨y, q, hq⟩ := readNumber_magnitudeText hr ht true (p.advance '-')
              refine ⟨.double y, q, ?_, fun _ => .double⟩
              rw [← hq, ← readValue_minus depth']
              rfl
          | false =>
              obtain ⟨⟨c, cs, hcs, hc⟩, -⟩ := magnitudeText_chars m e
              obtain ⟨y, q, hq⟩ := readNumber_magnitudeText hr ht false p
              refine ⟨.double y, q, ?_, fun _ => .double⟩
              rw [← hq, hcs, List.cons_append, ← readValue_digit hc depth']
              rfl
  | string => cases hv
  | array _ => cases hv
  | object _ _ => cases hv

end SchemaScope.Json
