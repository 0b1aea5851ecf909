/-
**Files that are written are read back.**

A path leads from place to place by what is there and what is a directory, and by nothing else.
Giving a file a new text changes neither, so every path leads where it led before, and the file that
was written is read as its new text.

Main results:

* `FileStore.locate_congr` — paths lead to the same places in stores of the same layout;
* `FileStore.readText_writeText` — **a file that was written is read as what was written**;
* `FileStore.exists_writeText` — a file that can be read can be written.
-/

import Mathlib
import SchemaScope.File.Store

set_option autoImplicit false

namespace SchemaScope.FileStore

/-- The stores start from one directory, and have something, and a directory, at the same places. -/
structure SameLayout (s s' : FileStore) : Prop where
  base : s.base = s'.base
  present : ∀ place, (s.get? place).isSome = (s'.get? place).isSome
  directory : ∀ place, s.hasDirectory place = s'.hasDirectory place

theorem follow_congr {s s' : FileStore} (h : SameLayout s s') : s.follow = s'.follow := by
  funext place piece
  simp only [follow, h.directory, h.present]

/-- Paths lead to the same places in stores of the same layout. -/
theorem locate_congr {s s' : FileStore} (h : SameLayout s s') (p : Path) :
    s.locate p = s'.locate p := by
  simp only [locate, follow_congr h, h.base]

section Put

variable {s : FileStore} {place : Place} {content : ByteArray}

theorem get?_put_self (h : s.get? place = some (.file content)) (entry : Entry) :
    (s.put place entry).get? place = some entry := by
  unfold get? at h ⊢
  split at h
  · cases h
  · next hb =>
    rw [put, if_neg hb]
    exact lookup_assign_self place entry s.entries

theorem get?_put_of_ne {other : Place} (h : other ≠ place) (entry : Entry) :
    (s.put place entry).get? other = s.get? other := by
  simp only [get?, put, lookup_assign_of_ne h]

/-- A new text for a file keeps the layout. -/
theorem sameLayout_put (h : s.get? place = some (.file content)) (content' : ByteArray) :
    SameLayout s (s.put place (.file content')) := by
  refine ⟨rfl, ?_, ?_⟩
  · intro other
    by_cases ho : other = place
    · subst ho
      rw [get?_put_self h, h]
      rfl
    · rw [get?_put_of_ne ho]
  · intro other
    by_cases ho : other = place
    · subst ho
      rw [hasDirectory, hasDirectory, get?_put_self h, h]
      rfl
    · rw [hasDirectory, hasDirectory, get?_put_of_ne ho]

end Put

theorem fromUTF8?_toUTF8 (text : String) : String.fromUTF8? text.toUTF8 = some text := by
  have h : text.toUTF8.IsValidUTF8 := text.isValidUTF8
  rw [String.fromUTF8?, dif_pos h]
  rfl

/-- What writing needs: a file to which the path leads. -/
theorem exists_place_of_writeText {s s' : FileStore} {p : Path} {text : String}
    (h : s.writeText p text = .ok s') : ∃ place content, s.locate p = .ok place ∧
      s.get? place = some (.file content) ∧ s' = s.put place (.file text.toUTF8) := by
  unfold writeText at h
  cases hl : s.locate p with
  | error fault => simp [hl, bind, Except.bind] at h
  | ok place =>
      simp only [hl, bind, Except.bind] at h
      split at h
      · next content hc =>
        cases h
        exact ⟨place, content, rfl, hc, rfl⟩
      · cases h
      · cases h

/-- **A file that was written is read as what was written.** -/
theorem readText_writeText {s s' : FileStore} {p : Path} {text : String}
    (h : s.writeText p text = .ok s') : s'.readText p = .ok text := by
  obtain ⟨place, content, hl, hg, rfl⟩ := exists_place_of_writeText h
  -- the path leads to the same place as before, where the new text stands
  have hl' := (locate_congr (sameLayout_put hg text.toUTF8) p).symm.trans hl
  simp only [readText, read, entryAt, hl', get?_put_self hg, bind, Except.bind, fromUTF8?_toUTF8]

/-- The bytes of a file that was written. -/
theorem read_writeText {s s' : FileStore} {p : Path} {text : String}
    (h : s.writeText p text = .ok s') : s'.read p = .ok text.toUTF8 := by
  obtain ⟨place, content, hl, hg, rfl⟩ := exists_place_of_writeText h
  have hl' := (locate_congr (sameLayout_put hg text.toUTF8) p).symm.trans hl
  simp only [read, entryAt, hl', get?_put_self hg, bind, Except.bind]

/-- A file that can be read can be written. -/
theorem exists_writeText {s : FileStore} {p : Path} {text : String} (h : s.readText p = .ok text)
    (text' : String) : ∃ s', s.writeText p text' = .ok s' := by
  unfold readText read entryAt at h
  cases hl : s.locate p with
  | error fault => simp [hl, bind, Except.bind] at h
  | ok place =>
      cases hg : s.get? place with
      | none => simp [hl, hg, bind, Except.bind] at h
      | some entry =>
          cases entry with
          | directory => simp [hl, hg, bind, Except.bind] at h
          | file content =>
              refine ⟨s.put place (.file text'.toUTF8), ?_⟩
              simp only [writeText, hl, hg, bind, Except.bind]

end SchemaScope.FileStore
