/-
**Reading character references back.**

A text that is written with references for the characters that markup needs is decoded to what it
was, and holds no quote.  A text that has no meaning is kept as it is written.  Either way decoding
never makes a text longer, and leaves nothing only of the empty one; so a text that goes on behind a
quote is never decoded to the same text as its part before the quote.

Main results:

* `Markup.decode?_encode` — **a text that was encoded is decoded to what it was**;
* `Markup.quote_notMem_encode`, `Markup.newline_notMem_encode` — what an encoded text cannot hold;
* `Markup.decodeOrKeep_eq_nil_iff` — only the empty text is decoded to nothing;
* `Markup.decodeOrKeep_quote_ne` — **what follows a quote shows in the decoded text**.
-/

import SchemaScope.Markup.Entity

set_option autoImplicit false

namespace SchemaScope

/-! ### References -/

namespace Reference

/-- A quote in a text is a byte of it. -/
theorem quote_mem_bytes {text : String} (h : '"' ∈ text.toList) :
    (0x22 : UInt8) ∈ text.toByteArray.data.toList := by
  rw [← text.ofList_toList, String.toByteArray_ofList, List.utf8Encode,
    List.toList_data_toByteArray]
  exact List.mem_flatMap.2 ⟨'"', h, by decide⟩

/-- No name has a quote in it. -/
theorem quote_notMem_name {entry : String × Char} (h : entry ∈ names) :
    '"' ∉ entry.1.toList := by
  -- looking through the bytes of all names is much less work than putting their characters together
  have hbytes : ∀ entry ∈ names, (0x22 : UInt8) ∉ entry.1.toByteArray.data.toList := by
    decide +kernel
  exact fun hquote => hbytes entry h (quote_mem_bytes hquote)

theorem digit?_quote (base : Nat) : digit? base '"' = none := by
  simp [digit?]

theorem number?_of_quote {base : Nat} {digits : List Char} (h : '"' ∈ digits) :
    number? base digits = none := by
  have hfold : ∀ n, digits.foldlM (fun n c => (digit? base c).map fun d => n * base + d) n =
      none := by
    induction digits with
    | nil => cases h
    | cons c digits ih =>
        intro n
        rw [List.foldlM_cons]
        rcases List.mem_cons.1 h with rfl | h
        · simp [digit?_quote]
        · cases digit? base c with
          | none => rfl
          | some d => simpa using ih h _
  unfold number?
  split
  · rfl
  · exact hfold 0

/-- A reference with a quote in it stands for no character. -/
theorem resolve?_of_quote {text : List Char} (h : '"' ∈ text) : resolve? text = none := by
  unfold resolve?
  split
  · rename_i number
    have hnumber : '"' ∈ number := by simpa using h
    unfold ofNumber?
    split
    · rename_i digits
      rw [number?_of_quote (by simpa using hnumber)]
      rfl
    · rw [number?_of_quote hnumber]
      rfl
  · rw [ofName?, Option.map_eq_none_iff, List.find?_eq_none]
    intro entry hentry hname
    have htext : entry.1.toList = text := by simpa using hname
    exact quote_notMem_name hentry (htext ▸ h)

end Reference

namespace Markup

/-! ### Decoding piece by piece -/

/-- What follows a text that has a meaning is decoded by itself. -/
theorem decodeFrom?_append {opened : Option (List Char)} {text decoded : List Char}
    (h : decodeFrom? opened text = some decoded) (rest : List Char) :
    decodeFrom? opened (text ++ rest) = (decodeFrom? none rest).map (decoded ++ ·) := by
  fun_induction decodeFrom? opened text generalizing decoded with
  | case1 =>
      obtain rfl := Option.some.inj h
      simp
  | case2 cs ih =>
      rw [List.cons_append, decodeFrom?, if_pos rfl]
      exact ih h
  | case3 c cs hc ih =>
      obtain ⟨tail, htail, rfl⟩ := Option.map_eq_some_iff.1 h
      rw [List.cons_append, decodeFrom?, if_neg hc, ih htail, Option.map_map]
      rfl
  | case4 => cases h
  | case5 opened cs ih =>
      simp only [Option.bind_eq_bind, Option.bind_eq_some_iff, Option.pure_def,
        Option.some.injEq] at h
      obtain ⟨c, hc, tail, htail, rfl⟩ := h
      rw [List.cons_append, decodeFrom?, if_pos rfl, ih htail, hc]
      cases decodeFrom? none rest <;> rfl
  | case6 => cases h
  | case7 opened c cs hsemicolon hampersand ih =>
      rw [List.cons_append, decodeFrom?, if_neg hsemicolon, if_neg hampersand]
      exact ih h

theorem length_le_of_decodeFrom? {opened : Option (List Char)} {text decoded : List Char}
    (h : decodeFrom? opened text = some decoded) : decoded.length ≤ text.length := by
  fun_induction decodeFrom? opened text generalizing decoded with
  | case1 =>
      obtain rfl := Option.some.inj h
      exact Nat.le_refl _
  | case2 cs ih =>
      have := ih h
      simp only [List.length_cons]
      omega
  | case3 c cs hc ih =>
      obtain ⟨tail, htail, rfl⟩ := Option.map_eq_some_iff.1 h
      have := ih htail
      simp only [List.length_cons]
      omega
  | case4 => cases h
  | case5 opened cs ih =>
      simp only [Option.bind_eq_bind, Option.bind_eq_some_iff, Option.pure_def,
        Option.some.injEq] at h
      obtain ⟨c, -, tail, htail, rfl⟩ := h
      have := ih htail
      simp only [List.length_cons]
      omega
  | case6 => cases h
  | case7 opened c cs hsemicolon hampersand ih =>
      have := ih h
      simp only [List.length_cons]
      omega

theorem eq_nil_of_decodeFrom? {opened : Option (List Char)} {text : List Char}
    (h : decodeFrom? opened text = some []) : opened = none ∧ text = [] := by
  fun_induction decodeFrom? opened text with
  | case1 => exact ⟨rfl, rfl⟩
  | case2 cs ih => cases (ih h).1
  | case3 c cs hc ih => simp at h
  | case4 => cases h
  | case5 opened cs ih =>
      simp only [Option.bind_eq_bind, Option.bind_eq_some_iff, Option.pure_def] at h
      obtain ⟨c, -, tail, -, hcons⟩ := h
      cases hcons
  | case6 => cases h
  | case7 opened c cs hsemicolon hampersand ih => cases (ih h).1

/-! ### Quotes -/

/-- A reference that has taken in a quote is never closed. -/
theorem decodeFrom?_of_quote {opened : List Char} (h : '"' ∈ opened) (text : List Char) :
    decodeFrom? (some opened) text = none := by
  induction text generalizing opened with
  | nil => rfl
  | cons c text ih =>
      rw [decodeFrom?]
      split
      · rw [Reference.resolve?_of_quote (List.mem_reverse.2 h)]
        rfl
      · split
        · rfl
        · exact ih (List.mem_cons_of_mem c h)

/-- A text without a meaning gets none by going on behind a quote. -/
theorem decodeFrom?_quote_of_eq_none {opened : Option (List Char)} {text : List Char}
    (h : decodeFrom? opened text = none) (rest : List Char) :
    decodeFrom? opened (text ++ '"' :: rest) = none := by
  fun_induction decodeFrom? opened text with
  | case1 => cases h
  | case2 cs ih =>
      rw [List.cons_append, decodeFrom?, if_pos rfl]
      exact ih h
  | case3 c cs hc ih =>
      rw [List.cons_append, decodeFrom?, if_neg hc, ih (Option.map_eq_none_iff.1 h)]
      rfl
  | case4 opened =>
      rw [List.nil_append, decodeFrom?, if_neg (by decide), if_neg (by decide)]
      exact decodeFrom?_of_quote List.mem_cons_self rest
  | case5 opened cs ih =>
      rw [List.cons_append, decodeFrom?, if_pos rfl]
      cases hresolved : Reference.resolve? opened.reverse with
      | none => rfl
      | some c =>
          have hrest : decodeFrom? none cs = none := by
            cases hcs : decodeFrom? none cs with
            | none => rfl
            | some tail => simp [hresolved, hcs] at h
          rw [ih hrest]
          rfl
  | case6 => rw [List.cons_append, decodeFrom?, if_neg (by decide), if_pos rfl]
  | case7 opened c cs hsemicolon hampersand ih =>
      rw [List.cons_append, decodeFrom?, if_neg hsemicolon, if_neg hampersand]
      exact ih h

theorem decodeOrKeep_of_some {text decoded : List Char} (h : decode? text = some decoded) :
    decodeOrKeep text = decoded := by rw [decodeOrKeep, h, Option.getD_some]

theorem decodeOrKeep_of_none {text : List Char} (h : decode? text = none) :
    decodeOrKeep text = text := by rw [decodeOrKeep, h, Option.getD_none]

/-- Only the empty text is decoded to nothing. -/
theorem decodeOrKeep_eq_nil_iff {text : List Char} : decodeOrKeep text = [] ↔ text = [] := by
  cases h : decode? text with
  | none => rw [decodeOrKeep_of_none h]
  | some decoded =>
      rw [decodeOrKeep_of_some h]
      constructor
      · rintro rfl
        exact (eq_nil_of_decodeFrom? h).2
      · rintro rfl
        exact (Option.some.inj h).symm

/-- A text that goes on behind a quote is decoded to another text than its part before the quote. -/
theorem decodeOrKeep_quote_ne (text rest : List Char) :
    decodeOrKeep (text ++ '"' :: rest) ≠ decodeOrKeep text := by
  have hlong : ∀ shown, shown.length ≤ text.length → text ++ '"' :: rest ≠ shown := by
    rintro shown hle rfl
    simp only [List.length_append, List.length_cons] at hle
    omega
  cases h : decode? text with
  | none =>
      rw [decodeOrKeep_of_none h, decodeOrKeep_of_none (decodeFrom?_quote_of_eq_none h rest)]
      exact hlong text (Nat.le_refl _)
  | some decoded =>
      rw [decodeOrKeep_of_some h]
      have hwhole := decodeFrom?_append h ('"' :: rest)
      rw [decodeFrom?, if_neg (by decide)] at hwhole
      cases hrest : decodeFrom? none rest with
      | none =>
          rw [hrest] at hwhole
          rw [decodeOrKeep_of_none hwhole]
          exact hlong decoded (length_le_of_decodeFrom? h)
      | some tail =>
          rw [hrest] at hwhole
          rw [decodeOrKeep_of_some hwhole]
          simp

/-! ### Encoded texts -/

/-- An encoded character is decoded to what it was, whatever follows it. -/
theorem decodeFrom?_encodeChar (c : Char) (rest : List Char) :
    decodeFrom? none (encodeChar c ++ rest) = (decodeFrom? none rest).map (c :: ·) := by
  have hplain : ∀ reference, decodeFrom? none reference = some [c] →
      decodeFrom? none (reference ++ rest) = (decodeFrom? none rest).map (c :: ·) :=
    fun reference h => decodeFrom?_append h rest
  unfold encodeChar
  split
  case h_6 hampersand _ _ _ _ => rw [List.singleton_append, decodeFrom?, if_neg hampersand]
  all_goals exact hplain _ (by decide +kernel)

/-- A text that was encoded is decoded to what it was. -/
theorem decode?_encode (text : List Char) : decode? (encode text) = some text := by
  induction text with
  | nil => rfl
  | cons c text ih =>
      rw [decode?] at ih ⊢
      rw [encode, List.flatMap_cons, decodeFrom?_encodeChar]
      rw [encode] at ih
      rw [ih, Option.map_some]

@[simp] theorem decodeOrKeep_encode (text : List Char) : decodeOrKeep (encode text) = text :=
  decodeOrKeep_of_some (decode?_encode text)

/-- How a character is written holds no quote, and a line feed only if that is the character. -/
theorem encodeChar_plain (c : Char) :
    '"' ∉ encodeChar c ∧ ('\n' ∈ encodeChar c → c = '\n') := by
  unfold encodeChar
  split
  case h_6 _ _ _ hquote _ => simp [Ne.symm hquote, eq_comm]
  all_goals decide

theorem quote_notMem_encode (text : List Char) : '"' ∉ encode text := by
  intro h
  obtain ⟨c, -, hc⟩ := List.mem_flatMap.1 h
  exact (encodeChar_plain c).1 hc

theorem newline_notMem_encode {text : List Char} (h : '\n' ∉ text) : '\n' ∉ encode text := by
  intro hmem
  obtain ⟨c, hc, hnewline⟩ := List.mem_flatMap.1 hmem
  exact h ((encodeChar_plain c).2 hnewline ▸ hc)

end Markup

end SchemaScope
