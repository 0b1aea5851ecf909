/-
**Byte offsets and edits.**

Edits are carried out on characters, but offsets count bytes.  A byte offset divides a text exactly
if it is a character boundary of its bytes, and an edit that fits replaces the bytes between its
offsets and no others.

Main definitions:

* `TextEdit.Fits` — the offsets of an edit are good for a text.

Main results:

* `Utf8.splitAt?_eq_some_iff` — what dividing a text at an offset gives;
* `Utf8.isSome_splitAt?_iff` — **a text is divided at the character boundaries of its bytes**;
* `TextEdit.exists_edited?_iff` — the edits that fit are those that can be carried out;
* `TextEdit.toByteArray_edited` — **the bytes of a text after an edit**;
* `TextEdit.exists_span_of_edited?` — an edit that fits has a span.
-/

import Mathlib
import SchemaScope.Source.Edit

set_option autoImplicit false

namespace SchemaScope

namespace Utf8

/-! ### Sizes in bytes -/

theorem size_eq_utf8ByteSize (cs : List Char) : size cs = (String.ofList cs).utf8ByteSize := by
  induction cs with
  | nil => rfl
  | cons c cs ih =>
      have hcons : String.ofList (c :: cs) = String.singleton c ++ String.ofList cs := by
        rw [String.singleton_eq_ofList, ← String.ofList_append]
        rfl
      rw [size_cons, ih, hcons, String.utf8ByteSize_append, String.utf8ByteSize_singleton]

theorem size_toList (text : String) : size text.toList = text.utf8ByteSize := by
  rw [size_eq_utf8ByteSize, String.ofList_toList]

/-! ### Dividing a text -/

theorem splitAt?_size_append (a b : List Char) : splitAt? (size a) (a ++ b) = some (a, b) := by
  induction a with
  | nil => cases b <;> rfl
  | cons c a ih =>
      have hpos := Char.utf8Size_pos c
      obtain ⟨n, hn⟩ : ∃ n, size (c :: a) = n + 1 :=
        ⟨c.utf8Size + size a - 1, by rw [size_cons]; omega⟩
      rw [size_cons] at hn
      have hrest : n + 1 - c.utf8Size = size a := by omega
      rw [size_cons, hn, List.cons_append, splitAt?, if_pos (by omega), hrest, ih]
      rfl

/-- Dividing a text at an offset gives the parts before and after it. -/
theorem splitAt?_eq_some_iff {n : Nat} {cs before after : List Char} :
    splitAt? n cs = some (before, after) ↔ cs = before ++ after ∧ n = size before := by
  constructor
  · intro h
    exact ⟨(splitAt?_append h).symm, (splitAt?_size h).symm⟩
  · rintro ⟨rfl, rfl⟩
    exact splitAt?_size_append before after

/-- A text is divided at the character boundaries of its bytes. -/
theorem isSome_splitAt?_iff {n : Nat} {text : String} :
    (splitAt? n text.toList).isSome = true ↔ (⟨n⟩ : String.Pos.Raw).IsValid text := by
  rw [String.Pos.Raw.isValid_iff_exists_append, Option.isSome_iff_exists]
  constructor
  · rintro ⟨⟨before, after⟩, h⟩
    obtain ⟨htext, hn⟩ := splitAt?_eq_some_iff.1 h
    refine ⟨String.ofList before, String.ofList after, ?_, ?_⟩
    · rw [← String.ofList_append, ← htext, String.ofList_toList]
    · rw [hn, size_eq_utf8ByteSize]
      rfl
  · rintro ⟨before, after, rfl, hn⟩
    refine ⟨(before.toList, after.toList), splitAt?_eq_some_iff.2 ⟨String.toList_append, ?_⟩⟩
    rw [size_toList]
    exact congrArg String.Pos.Raw.byteIdx hn

/-- The bytes before and after an offset at which a text is divided. -/
theorem extract_of_splitAt? {n : Nat} {text : String} {before after : List Char}
    (h : splitAt? n text.toList = some (before, after)) :
    text.toByteArray.extract 0 n = (String.ofList before).toByteArray ∧
      text.toByteArray.extract n text.utf8ByteSize = (String.ofList after).toByteArray := by
  obtain ⟨htext, hn⟩ := splitAt?_eq_some_iff.1 h
  -- the bytes of the text are those of the two parts, and the offset is the size of the first
  have hbytes : text.toByteArray =
      (String.ofList before).toByteArray ++ (String.ofList after).toByteArray := by
    rw [← String.toByteArray_append, ← String.ofList_append, ← htext, String.ofList_toList]
  have hsize : n = (String.ofList before).toByteArray.size := by
    rw [hn, size_eq_utf8ByteSize, String.size_toByteArray]
  have htotal : text.utf8ByteSize = (String.ofList before).toByteArray.size +
      (String.ofList after).toByteArray.size := by
    rw [← String.size_toByteArray, hbytes, ByteArray.size_append]
  rw [hbytes, ByteArray.extract_append_eq_left hsize,
    ByteArray.extract_append_eq_right hsize htotal]
  exact ⟨rfl, rfl⟩

end Utf8

namespace TextEdit

open Utf8

variable {e : TextEdit}

/-! ### Edits -/

theorem edited?_eq_some_iff {text edited : List Char} :
    e.edited? text = some edited ↔ e.start ≤ e.stop ∧ ∃ before inner after rest,
      splitAt? e.start text = some (before, inner) ∧ splitAt? e.stop text = some (rest, after) ∧
        edited = before ++ e.text.toList ++ after := by
  unfold edited? outside?
  by_cases hle : e.start ≤ e.stop
  · cases splitAt? e.start text with
    | none => simp [hle]
    | some parts =>
        cases splitAt? e.stop text with
        | none => simp [hle]
        | some parts' =>
            obtain ⟨before, inner⟩ := parts
            obtain ⟨rest, after⟩ := parts'
            simp [hle, eq_comm]
  · simp [hle]

/-- The offsets of an edit are in order, lie within the text and are character boundaries of its
bytes. -/
def Fits (e : TextEdit) (text : String) : Prop :=
  e.start ≤ e.stop ∧ e.stop ≤ text.utf8ByteSize ∧ (⟨e.start⟩ : String.Pos.Raw).IsValid text ∧
    (⟨e.stop⟩ : String.Pos.Raw).IsValid text

instance (e : TextEdit) (text : String) : Decidable (e.Fits text) :=
  inferInstanceAs (Decidable (e.start ≤ e.stop ∧ e.stop ≤ text.utf8ByteSize ∧
    (⟨e.start⟩ : String.Pos.Raw).IsValid text ∧ (⟨e.stop⟩ : String.Pos.Raw).IsValid text))

/-- The edits that fit are those that can be carried out. -/
theorem exists_edited?_iff {text : String} :
    (∃ edited, e.edited? text.toList = some edited) ↔ e.Fits text := by
  simp only [edited?_eq_some_iff, Fits, ← isSome_splitAt?_iff, Option.isSome_iff_exists]
  constructor
  · rintro ⟨edited, hle, before, inner, after, rest, h₁, h₂, -⟩
    refine ⟨hle, ?_, ⟨_, h₁⟩, ⟨_, h₂⟩⟩
    obtain ⟨htext, hn⟩ := splitAt?_eq_some_iff.1 h₂
    rw [← size_toList, htext, size_append, hn]
    omega
  · rintro ⟨hle, -, ⟨⟨before, inner⟩, h₁⟩, ⟨⟨rest, after⟩, h₂⟩⟩
    exact ⟨_, hle, before, inner, after, rest, h₁, h₂, rfl⟩

/-- An edit replaces the bytes between its offsets. -/
theorem toByteArray_edited {text : String} {edited : List Char}
    (h : e.edited? text.toList = some edited) :
    (String.ofList edited).toByteArray = text.toByteArray.extract 0 e.start ++ e.text.toByteArray ++
      text.toByteArray.extract e.stop text.utf8ByteSize := by
  obtain ⟨-, before, inner, after, rest, h₁, h₂, rfl⟩ := edited?_eq_some_iff.1 h
  rw [(extract_of_splitAt? h₁).1, (extract_of_splitAt? h₂).2, String.ofList_append,
    String.ofList_append, String.ofList_toList, String.toByteArray_append, String.toByteArray_append]

/-- An edit that fits has a span. -/
theorem exists_span_of_edited? {text edited : List Char} (h : e.edited? text = some edited) :
    ∃ span, e.span? text = some span := by
  obtain ⟨-, before, inner, after, rest, h₁, h₂, hedited⟩ := edited?_eq_some_iff.1 h
  obtain ⟨htext, hstart⟩ := splitAt?_eq_some_iff.1 h₁
  obtain ⟨htext', hstop⟩ := splitAt?_eq_some_iff.1 h₂
  -- the three offsets lie within the texts that they are offsets of
  have hstart_le : e.start ≤ size text := by
    rw [htext, size_append]
    omega
  have hstop_le : e.stop ≤ size text := by
    rw [htext', size_append]
    omega
  have hnew_le : e.start + size e.text.toList ≤ size edited := by
    rw [hedited, size_append, size_append]
    omega
  simp [span?, h, pointAt?, hstart_le, hstop_le, hnew_le]

end TextEdit

end SchemaScope
