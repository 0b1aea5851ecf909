/-
**Positions and edits.**

The position of a byte offset is counted from the start of the text whenever it is asked for.  It
can also be reached from the position of an earlier offset, over the bytes between the two: the line
grows by the line feeds among them, and the column is counted from the last line feed, or goes on if
there is none.  The two ways of counting agree, and so positions in a text before and after an edit
can be compared: behind the edit both texts go on with the same bytes, from two positions that the
edit tells.

An offset need not lie between two characters here.

Main definitions:

* `Position.past` — the position reached from another over some bytes;
* `TextEdit.removed`, `TextEdit.kept` — the bytes that an edit removes, and those between the edit
  and an offset behind it;
* `TextEdit.shifted` — where an offset behind the edit is after it.

Main results:

* `Position.past_append` — the way over two stretches of bytes;
* `pointAt?_of_le` — the position of an offset is reached from the first position;
* `TextEdit.bytes_edited` — the bytes of a text after an edit;
* `TextEdit.span?_of_edited?` — **what the span of an edit consists of**;
* `TextEdit.pointAt?_behind` — **the positions behind an edit**, in the text before it and after it.
-/

import SchemaScope.Proofs.Source.Offsets

set_option autoImplicit false

namespace SchemaScope

/-! ### Positions over bytes -/

namespace Position

/-- The position reached from another over some bytes: a line more for every line feed, and the
column counted from the last of them, or on from the first position if there is none. -/
def past (p : Position) (bytes : List UInt8) : Position :=
  ⟨p.line + bytes.count lineFeed,
    if lineFeed ∈ bytes then (bytes.reverse.takeWhile (· != lineFeed)).length
    else p.column + bytes.length⟩

@[simp] theorem line_past (p : Position) (bytes : List UInt8) :
    (p.past bytes).line = p.line + bytes.count lineFeed := rfl

theorem column_past_of_mem (p : Position) {bytes : List UInt8} (h : lineFeed ∈ bytes) :
    (p.past bytes).column = (bytes.reverse.takeWhile (· != lineFeed)).length := if_pos h

theorem column_past_of_notMem (p : Position) {bytes : List UInt8} (h : lineFeed ∉ bytes) :
    (p.past bytes).column = p.column + bytes.length := if_neg h

theorem takeWhile_reverse_of_notMem {bytes : List UInt8} (h : lineFeed ∉ bytes) :
    bytes.reverse.takeWhile (· != lineFeed) = bytes.reverse := by
  rw [List.takeWhile_eq_self_iff]
  intro b hb
  rw [bne_iff_ne]
  rintro rfl
  exact h (List.mem_reverse.1 hb)

/-- Of two stretches of bytes the second decides the column if it has a line feed. -/
theorem takeWhile_reverse_append_of_mem (a : List UInt8) {b : List UInt8} (h : lineFeed ∈ b) :
    (a ++ b).reverse.takeWhile (· != lineFeed) = b.reverse.takeWhile (· != lineFeed) := by
  rw [List.reverse_append, List.takeWhile_append, if_neg]
  intro hlength
  have hall := List.takeWhile_eq_self_iff.1
    ((List.takeWhile_prefix (· != lineFeed)).eq_of_length hlength)
  have := hall lineFeed (List.mem_reverse.2 h)
  simp at this

/-- The way over two stretches of bytes, one after the other. -/
theorem past_append (p : Position) (a b : List UInt8) : p.past (a ++ b) = (p.past a).past b := by
  have hline : (p.past (a ++ b)).line = ((p.past a).past b).line := by
    rw [line_past, line_past, line_past, List.count_append, Nat.add_assoc]
  have hcolumn : (p.past (a ++ b)).column = ((p.past a).past b).column := by
    by_cases hb : lineFeed ∈ b
    · rw [column_past_of_mem p (List.mem_append_right a hb), column_past_of_mem _ hb,
        takeWhile_reverse_append_of_mem a hb]
    · rw [column_past_of_notMem _ hb]
      by_cases ha : lineFeed ∈ a
      · -- the last line feed stands in the first stretch, and the whole second one comes behind it
        rw [column_past_of_mem p (List.mem_append_left b ha), column_past_of_mem p ha,
          List.reverse_append, List.takeWhile_append, takeWhile_reverse_of_notMem hb, if_pos rfl,
          List.length_append, List.length_reverse, Nat.add_comm]
      · rw [column_past_of_notMem p (by simp [ha, hb]), column_past_of_notMem p ha,
          List.length_append, Nat.add_assoc]
  exact congrArg₂ Position.mk hline hcolumn

theorem behind_eq_past (bytes : List UInt8) : behind bytes = origin.past bytes := by
  by_cases h : lineFeed ∈ bytes
  · rw [behind, past, if_pos h]
    rfl
  · rw [behind, past, if_neg h, takeWhile_reverse_of_notMem h, List.length_reverse]
    simp [origin]

end Position

/-! ### Points of a text -/

theorem pointAt?_of_le {text : List Char} {n : Nat} (h : n ≤ Utf8.size text) :
    pointAt? text n = some (Position.origin.past ((Utf8.bytes text).take n)) := by
  rw [pointAt?, Utf8.length_bytes, if_pos h, Position.behind_eq_past]

/-- An offset within a character has a position too. -/
example : pointAt? "ab\né".toList 4 = some ⟨2, 1⟩ := by decide

theorem Utf8.take_bytes_of_splitAt? {n : Nat} {text before after : List Char}
    (h : splitAt? n text = some (before, after)) :
    (bytes text).take n = bytes before ∧ (bytes text).drop n = bytes after := by
  obtain ⟨rfl, rfl⟩ := splitAt?_eq_some_iff.1 h
  rw [bytes_append, ← length_bytes, List.take_left, List.drop_left]
  exact ⟨rfl, rfl⟩

/-! ### Edits -/

namespace TextEdit

open Utf8

variable {e : TextEdit} {text edited : List Char}

/-- The bytes that an edit removes from a text. -/
def removed (e : TextEdit) (text : List Char) : List UInt8 :=
  ((bytes text).take e.stop).drop e.start

/-- The bytes of a text between the end of an edit and an offset behind it. -/
def kept (e : TextEdit) (text : List Char) (n : Nat) : List UInt8 :=
  ((bytes text).take n).drop e.stop

/-- The offset after an edit that corresponds to one behind it. -/
def shifted (e : TextEdit) (n : Nat) : Nat := n - e.stop + (e.start + size e.text.toList)

theorem bounds_of_edited? (h : e.edited? text = some edited) :
    e.start ≤ e.stop ∧ e.stop ≤ size text := by
  obtain ⟨hle, before, inner, after, rest, h₁, h₂, -⟩ := edited?_eq_some_iff.1 h
  obtain ⟨htext, hstop⟩ := splitAt?_eq_some_iff.1 h₂
  refine ⟨hle, ?_⟩
  rw [htext, size_append]
  omega

/-- The bytes of a text after an edit. -/
theorem bytes_edited (h : e.edited? text = some edited) :
    bytes edited =
      (bytes text).take e.start ++ bytes e.text.toList ++ (bytes text).drop e.stop := by
  obtain ⟨-, before, inner, after, rest, h₁, h₂, rfl⟩ := edited?_eq_some_iff.1 h
  rw [bytes_append, bytes_append, (take_bytes_of_splitAt? h₁).1, (take_bytes_of_splitAt? h₂).2]

theorem take_eq_append_drop {m n : Nat} (l : List UInt8) (h : m ≤ n) :
    l.take n = l.take m ++ (l.take n).drop m := by
  have hsplit := List.take_append_drop m (l.take n)
  rw [List.take_take, min_eq_left h] at hsplit
  exact hsplit.symm

/-- The bytes before the end of an edit: those before its start, and those it removes. -/
theorem take_stop (h : e.edited? text = some edited) :
    (bytes text).take e.stop = (bytes text).take e.start ++ e.removed text :=
  take_eq_append_drop _ (bounds_of_edited? h).1

/-- The bytes before an offset behind an edit: those before the end of the edit, and those that are
kept. -/
theorem take_behind (e : TextEdit) (text : List Char) {n : Nat} (hn : e.stop ≤ n) :
    (bytes text).take n = (bytes text).take e.stop ++ e.kept text n :=
  take_eq_append_drop _ hn

/-- The bytes before the corresponding offset after an edit: those before the start of the edit, the
new ones, and those that are kept. -/
theorem take_shifted (h : e.edited? text = some edited) (n : Nat) :
    (bytes edited).take (e.shifted n) =
      (bytes text).take e.start ++ bytes e.text.toList ++ e.kept text n := by
  obtain ⟨hle, hstop⟩ := bounds_of_edited? h
  have hlength : ((bytes text).take e.start ++ bytes e.text.toList).length =
      e.start + size e.text.toList := by
    rw [List.length_append, List.length_take, length_bytes, length_bytes, min_eq_left (by omega)]
  rw [bytes_edited h, shifted, Nat.add_comm, ← hlength, List.take_length_add_append, kept,
    List.drop_take]

theorem shifted_le (h : e.edited? text = some edited) {n : Nat} (hsize : n ≤ size text) :
    e.shifted n ≤ size edited := by
  obtain ⟨hle, hstop⟩ := bounds_of_edited? h
  have hlength := congrArg List.length (bytes_edited h)
  simp only [List.length_append, List.length_take, List.length_drop, length_bytes] at hlength
  rw [shifted]
  omega

theorem shifted_stop (e : TextEdit) : e.shifted e.stop = e.start + size e.text.toList := by
  rw [shifted, Nat.sub_self, Nat.zero_add]

theorem kept_stop (e : TextEdit) (text : List Char) : e.kept text e.stop = [] :=
  List.drop_eq_nil_of_le (List.length_take_le _ _)

/-- **What the span of an edit consists of**: the old end is reached from the start over the removed
bytes, and the new end over the new ones. -/
theorem span?_of_edited? (h : e.edited? text = some edited) :
    ∃ start, pointAt? text e.start = some start ∧ e.span? text =
      some ⟨e.start, e.stop, e.start + size e.text.toList, start, start.past (e.removed text),
        start.past (bytes e.text.toList)⟩ := by
  obtain ⟨hle, hstop⟩ := bounds_of_edited? h
  have hnew := shifted_le h hstop
  have hbytes := take_shifted h e.stop
  rw [shifted_stop] at hnew hbytes
  rw [kept_stop, List.append_nil] at hbytes
  have hstart := pointAt?_of_le (hle.trans hstop)
  refine ⟨_, hstart, ?_⟩
  rw [span?, h, hstart, pointAt?_of_le hstop, take_stop h, Position.past_append]
  simp only [Option.bind_eq_bind, Option.bind_some]
  rw [pointAt?_of_le hnew, hbytes, Position.past_append]
  rfl

/-- The position of an offset behind an edit, in the text before the edit and, for the corresponding
offset, in the text after it: from the old and from the new end over the same bytes. -/
theorem pointAt?_behind {span : EditSpan} (h : e.edited? text = some edited)
    (hspan : e.span? text = some span) {n : Nat} (hn : e.stop ≤ n) (hsize : n ≤ size text) :
    pointAt? text n = some (span.oldStop.past (e.kept text n)) ∧
      pointAt? edited (e.shifted n) = some (span.newStop.past (e.kept text n)) := by
  obtain ⟨hle, hstop⟩ := bounds_of_edited? h
  obtain ⟨start, hstart, hspan'⟩ := span?_of_edited? h
  rw [pointAt?_of_le (hle.trans hstop)] at hstart
  cases hstart
  cases hspan.symm.trans hspan'
  constructor
  · rw [pointAt?_of_le hsize, take_behind e text hn, take_stop h, Position.past_append,
      Position.past_append]
  · rw [pointAt?_of_le (shifted_le h hsize), take_shifted h n, Position.past_append,
      Position.past_append]

end TextEdit

end SchemaScope
