/-
**Finding the entries of a text.**

Entries are looked for from left to right, and the search goes on behind the one that was found.
Whether an entry starts at a place is decided by the pieces between the quotes from there on: the
first has to be `Name=`, the next one the name of a localizable string, and the one after it
` Value=`.  The value then runs to the last quote of its line.  A text in which no entry starts is
passed over, and what follows is searched as if it stood alone.

Main definitions:

* `Locale.IsKey` — a text that can be a key;
* `Locale.nameOf` — the name of the string with a key;
* `Locale.Quiet` — no entry starts in a text, given what follows it;
* `Locale.given?`, `Locale.valuesOf` — what an entry gives for a key, and all that a text gives.

Main results:

* `Locale.entryAt?_nameOf` — the entry that opens with a name is told by the value's line;
* `Locale.pieces_of_entryAt?` — **the pieces between quotes where an entry starts**;
* `Locale.entriesFrom_append_of_quiet` — **a quiet text is passed over**;
* `Locale.get?_strings` — the string under a key is the first value that the text gives.
-/

import Mathlib.Data.List.Basic
import Mathlib.Data.List.TakeWhile
import SchemaScope.Resource.Locale

set_option autoImplicit false

namespace SchemaScope

/-- A text is divided at the first place of a character in one way only. -/
theorem append_cons_inj_of_first {c : Char} {front front' back back' : List Char}
    (hfront : c ∉ front) (hfront' : c ∉ front') (h : front ++ c :: back = front' ++ c :: back') :
    front = front' ∧ back = back' := by
  rcases List.append_eq_append_iff.1 h with ⟨mid, rfl, hback⟩ | ⟨mid, rfl, hback⟩
  · cases mid with
    | nil => exact ⟨by simp, by simpa using hback⟩
    | cons d mid =>
        obtain ⟨rfl, -⟩ := List.cons.inj hback
        simp at hfront'
  · cases mid with
    | nil => exact ⟨by simp, by simpa using hback.symm⟩
    | cons d mid =>
        obtain ⟨rfl, -⟩ := List.cons.inj hback
        simp at hfront

/-- The test that stops at a character passes over a text without it. -/
theorem bne_of_notMem {c : Char} {text : List Char} (h : c ∉ text) :
    ∀ d ∈ text, (d != c) = true := by
  intro d hd
  simp only [bne_iff_ne]
  rintro rfl
  exact h hd

namespace Locale

open Text

/-! ### Lines -/

theorem beforeLastQuote?_of_notMem {line : List Char} (h : '"' ∉ line) :
    beforeLastQuote? line = none := by
  have hdrop : line.reverse.dropWhile (· != '"') = [] :=
    List.dropWhile_eq_nil_iff.2 (bne_of_notMem (by simpa using h))
  rw [beforeLastQuote?, hdrop]

/-- The part of a line before a quote that is its last one. -/
theorem beforeLastQuote?_split (raw : List Char) {line : List Char} (h : '"' ∉ line) :
    beforeLastQuote? (raw ++ '"' :: line) = some raw := by
  have hpass : ∀ c ∈ line.reverse, (c != '"') = true := bne_of_notMem (by simpa using h)
  have hdrop : (raw ++ '"' :: line).reverse.dropWhile (· != '"') = '"' :: raw.reverse := by
    rw [List.reverse_append, List.reverse_cons, List.append_assoc, List.singleton_append,
      List.dropWhile_append_of_pos hpass, List.dropWhile_cons_of_neg (by simp)]
  rw [beforeLastQuote?, hdrop]
  exact congrArg some (List.reverse_reverse raw)

/-- Behind a quote with another one on its line, the part before the last quote goes on. -/
theorem exists_beforeLastQuote? (raw : List Char) {line : List Char} (h : '"' ∈ line) :
    ∃ more, beforeLastQuote? (raw ++ '"' :: line) = some (raw ++ '"' :: more) := by
  obtain ⟨after, more, hline, hafter⟩ := List.eq_append_cons_of_mem (List.mem_reverse.2 h)
  obtain rfl : line = more.reverse ++ '"' :: after.reverse := by
    rw [← List.reverse_reverse line, hline]
    simp
  refine ⟨more.reverse, ?_⟩
  have hsplit := beforeLastQuote?_split (raw ++ '"' :: more.reverse)
    (fun hmem => hafter (List.mem_reverse.1 hmem))
  rwa [List.append_assoc, List.cons_append] at hsplit

/-! ### Keys and names -/

/-- A text of word characters that is not empty. -/
def IsKey (key : List Char) : Prop := key ≠ [] ∧ ∀ c ∈ key, isWordChar c = true

instance (key : List Char) : Decidable (IsKey key) :=
  decidable_of_iff (key ≠ [] ∧ key.all isWordChar = true) (by rw [List.all_eq_true, IsKey])

theorem IsKey.notMem {key : List Char} (h : IsKey key) {c : Char} (hc : isWordChar c = false) :
    c ∉ key := by
  intro hmem
  rw [h.2 c hmem] at hc
  cases hc

/-- A key is read to its end if no word character follows. -/
theorem IsKey.takeWhile_append {key : List Char} (h : IsKey key) {rest : List Char}
    (hrest : ∀ c, rest.head? = some c → isWordChar c = false) :
    (key ++ rest).takeWhile isWordChar = key := by
  rw [List.takeWhile_append_of_pos h.2]
  cases rest with
  | nil => simp
  | cons c rest => rw [List.takeWhile_cons_of_neg (by simp [hrest c rfl]), List.append_nil]

theorem IsKey.takeWhile_append_dot {key : List Char} (h : IsKey key) {rest : List Char}
    (hrest : rest.head? = some '.') : (key ++ rest).takeWhile isWordChar = key := by
  refine h.takeWhile_append fun c hc => ?_
  obtain rfl : '.' = c := by simpa [hrest] using hc
  decide

/-- What stands before the quotes of a name. -/
def label : List Char := "Name=".toList

/-- What stands between the quotes of a name and those of a value. -/
def valueLabel : List Char := " Value=".toList

/-- What stands in a name before the key. -/
def nameFront : List Char := "LocalizableStrings.".toList

/-- What stands in a name behind the key. -/
def nameBack : List Char := ".Value".toList

/-- The name of the string with the given key. -/
def nameOf (key : List Char) : List Char := nameFront ++ key ++ nameBack

theorem quote_notMem_label : '"' ∉ label := by decide +kernel

theorem quote_notMem_valueLabel : '"' ∉ valueLabel := by decide +kernel

theorem quote_notMem_nameOf {key : List Char} (hkey : IsKey key) : '"' ∉ nameOf key := by
  have hfront : '"' ∉ nameFront := by decide +kernel
  have hback : '"' ∉ nameBack := by decide +kernel
  simp only [nameOf, List.mem_append, not_or]
  exact ⟨⟨hfront, hkey.notMem (by decide)⟩, hback⟩

/-- An entry as the pieces between its quotes. -/
theorem entry_pieces (key value : List Char) :
    opening ++ key ++ middle ++ value =
      label ++ '"' :: (nameOf key ++ '"' :: (valueLabel ++ '"' :: value)) := by
  have hopening : opening = label ++ '"' :: nameFront := by decide +kernel
  have hmiddle : middle = nameBack ++ '"' :: (valueLabel ++ ['"']) := by decide +kernel
  rw [hopening, hmiddle, nameOf]
  simp only [List.append_assoc, List.cons_append, List.nil_append]

/-! ### Entries -/

/-- The entry that opens with the name of a string: the value's line tells how far it runs. -/
theorem entryAt?_nameOf {key : List Char} (hkey : IsKey key) (value : List Char) :
    entryAt? (label ++ '"' :: (nameOf key ++ '"' :: (valueLabel ++ '"' :: value))) =
      (beforeLastQuote? (value.takeWhile (· != '\n'))).map fun raw =>
        ⟨key, raw, opening.length + key.length + middle.length + raw.length + 1⟩ := by
  have hhead : (middle ++ value).head? = some '.' := by
    have hmiddle : middle.head? = some '.' := by decide +kernel
    rw [List.head?_append, hmiddle, Option.some_or]
  have htake := hkey.takeWhile_append_dot hhead
  have hne : key.isEmpty = false := by simpa using hkey.1
  rw [← entry_pieces, List.append_assoc, List.append_assoc, entryAt?, afterText?_append]
  simp only [Option.bind_eq_bind, Option.bind_some, htake, hne, Bool.false_eq_true, if_false,
    List.drop_left, afterText?_append]
  cases beforeLastQuote? (value.takeWhile (· != '\n')) <;> rfl

/-- Where an entry starts stand its name and the beginning of its value. -/
theorem exists_of_entryAt? {text : List Char} {e : Entry} (h : entryAt? text = some e) :
    IsKey e.key ∧ ∃ value, text = opening ++ e.key ++ middle ++ value := by
  simp only [entryAt?, Option.bind_eq_bind, Option.bind_eq_some_iff] at h
  obtain ⟨afterOpening, hopening, h⟩ := h
  split at h
  · cases h
  · rename_i hne
    simp only [Option.bind_eq_some_iff] at h
    obtain ⟨value, hvalue, raw, -, he⟩ := h
    obtain rfl := Option.some.inj he
    refine ⟨⟨by simpa using hne, fun c hc => List.mem_takeWhile_imp hc⟩, value, ?_⟩
    have hkey : afterOpening.takeWhile isWordChar ++ (middle ++ value) = afterOpening := by
      rw [← afterText?_eq_some hvalue]
      exact List.prefix_iff_eq_append.1 (List.takeWhile_prefix _)
    rw [afterText?_eq_some hopening, List.append_assoc, List.append_assoc, hkey]

/-- The pieces between quotes where an entry starts. -/
theorem pieces_of_entryAt? {front back : List Char} {e : Entry} (hfront : '"' ∉ front)
    (h : entryAt? (front ++ '"' :: back) = some e) :
    front = label ∧ IsKey e.key ∧
      ∃ value, back = nameOf e.key ++ '"' :: (valueLabel ++ '"' :: value) := by
  obtain ⟨hkey, value, htext⟩ := exists_of_entryAt? h
  rw [entry_pieces] at htext
  obtain ⟨rfl, rfl⟩ := append_cons_inj_of_first hfront quote_notMem_label htext
  exact ⟨rfl, hkey, value, rfl⟩

/-- An entry holds a quote. -/
theorem entryAt?_of_notMem {text : List Char} (h : '"' ∉ text) : entryAt? text = none := by
  cases hentry : entryAt? text with
  | none => rfl
  | some e =>
      obtain ⟨-, value, rfl⟩ := exists_of_entryAt? hentry
      rw [entry_pieces] at h
      simp at h

/-! ### Passing over a text -/

/-- No entry starts in a text that is followed by the given one. -/
def Quiet (text rest : List Char) : Prop :=
  ∀ front back, text = front ++ back → back ≠ [] → entryAt? (back ++ rest) = none

theorem Quiet.append {a b rest : List Char} (ha : Quiet a (b ++ rest)) (hb : Quiet b rest) :
    Quiet (a ++ b) rest := by
  intro front back h hback
  -- the place lies in the first text or in the second one
  rcases List.append_eq_append_iff.1 h with ⟨mid, rfl, rfl⟩ | ⟨mid, rfl, rfl⟩
  · exact hb mid back rfl hback
  · rw [List.append_assoc]
    by_cases hmid : mid = []
    · subst hmid
      exact hb [] b rfl hback
    · exact ha front mid rfl hmid

/-- A quiet text is passed over. -/
theorem entriesFrom_append_of_quiet {text rest : List Char} (h : Quiet text rest) (skip : Nat) :
    entriesFrom skip (text ++ rest) = entriesFrom (skip - text.length) rest := by
  induction text generalizing skip with
  | nil => rfl
  | cons c text ih =>
      have htext : Quiet text rest := by
        intro front back hsplit
        exact h (c :: front) back (by rw [hsplit, List.cons_append])
      have hnone : entryAt? (c :: (text ++ rest)) = none := h [] (c :: text) rfl (by simp)
      cases skip with
      | zero =>
          rw [List.cons_append, entriesFrom, hnone]
          simpa using ih htext 0
      | succ skip =>
          rw [List.cons_append, entriesFrom, ih htext, List.length_cons, Nat.add_sub_add_right]

/-- A piece with the quote behind it is quiet, unless a name opens there. -/
theorem quiet_quoted {piece rest : List Char} (hpiece : '"' ∉ piece)
    (h : label <:+ piece → ∀ key value, IsKey key →
      rest ≠ nameOf key ++ '"' :: (valueLabel ++ '"' :: value)) :
    Quiet (piece ++ ['"']) rest := by
  intro front back hsplit hback
  obtain ⟨back, c, rfl⟩ := (List.eq_nil_or_concat back).resolve_left hback
  rw [List.concat_eq_append, ← List.append_assoc] at hsplit
  obtain ⟨rfl, hquote⟩ := List.append_inj' hsplit rfl
  obtain rfl : '"' = c := by simpa using hquote
  rw [List.concat_eq_append, List.append_assoc, List.singleton_append]
  cases hentry : entryAt? (back ++ '"' :: rest) with
  | none => rfl
  | some e =>
      have hnotMem : '"' ∉ back := fun hmem => hpiece (List.mem_append_right _ hmem)
      obtain ⟨rfl, hkey, value, hrest⟩ := pieces_of_entryAt? hnotMem hentry
      exact absurd hrest (h ⟨front, rfl⟩ e.key value hkey)

/-- A text without quotes is quiet, unless it ends with the beginning of a label. -/
theorem quiet_plain {text front back : List Char} (htext : '"' ∉ text) (hfront : '"' ∉ front)
    (h : ∀ part, part <:+ text → part ≠ [] → part ++ front ≠ label) :
    Quiet text (front ++ '"' :: back) := by
  rintro before part rfl hpart
  rw [← List.append_assoc]
  cases hentry : entryAt? (part ++ front ++ '"' :: back) with
  | none => rfl
  | some e =>
      have hnotMem : '"' ∉ part ++ front := by
        simp only [List.mem_append, not_or] at htext ⊢
        exact ⟨htext.2, hfront⟩
      exact absurd (pieces_of_entryAt? hnotMem hentry).1 (h part ⟨before, rfl⟩ hpart)

/-! ### Values -/

/-- What a key and a value as they are written give for a key: nothing if the key is another one, or
if the value is empty. -/
def given? (key : String) (written raw : List Char) : Option String :=
  if written = key.toList ∧ Markup.decodeOrKeep raw ≠ [] then
    some (String.ofList (Markup.decodeOrKeep raw))
  else none

/-- The values that a text gives for a key, in order. -/
def valuesOf (key text : String) : List String :=
  (entries text.toList).filterMap fun e => given? key e.key e.raw

theorem given?_of_ne {key : String} {written : List Char} (h : written ≠ key.toList)
    (raw : List Char) : given? key written raw = none := if_neg fun hgiven => h hgiven.1

theorem given?_self (key : String) {raw : List Char} (h : Markup.decodeOrKeep raw ≠ []) :
    given? key key.toList raw = some (String.ofList (Markup.decodeOrKeep raw)) := if_pos ⟨rfl, h⟩

theorem given?_eq_string? (key : String) (e : Entry) :
    given? key e.key e.raw = (e.string?.filter (·.1 = key)).map Prod.snd := by
  have hkey : String.ofList e.key = key ↔ e.key = key.toList := by
    rw [← String.toList_inj, String.toList_ofList]
  unfold given? Entry.string?
  cases Markup.decodeOrKeep e.raw with
  | nil => simp
  | cons c cs => by_cases h : e.key = key.toList <;> simp [Option.filter, hkey, h]

/-- The string under a key is the first value that the text gives for it. -/
theorem get?_strings (text key : String) :
    (strings text).get? key = (valuesOf key text).head? := by
  rw [strings, Table.get?_ofListFirst, valuesOf, List.head?_filterMap]
  induction entries text.toList with
  | nil => rfl
  | cons e es ih =>
      rw [List.findSome?_cons, given?_eq_string?]
      cases hstring : e.string? with
      | none => simpa [List.filterMap_cons, hstring] using ih
      | some pair =>
          by_cases h : pair.1 = key
          · simp [hstring, Option.filter, h]
          · simpa [hstring, Option.filter, h] using ih

theorem get?_strings_ofList (text : List Char) (key : String) :
    (strings (String.ofList text)).get? key =
      (entries text).findSome? fun e => given? key e.key e.raw := by
  rw [get?_strings, valuesOf, String.toList_ofList, List.head?_filterMap]

end Locale

end SchemaScope
