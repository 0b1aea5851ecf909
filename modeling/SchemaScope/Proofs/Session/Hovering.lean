/-
**Which mention a cursor stands behind.**

An editor asks what to show over a line, and says how many characters stand before the cursor.  The
mention that counts is the last one that starts before the cursor.  The session finds it by the
bytes before each mention, though, and a character can take several bytes.  So a mention behind such
characters can lie before the cursor and be missed.  It is so exactly if the number the editor gives
lies above the number of characters before the mention, but not above the number of bytes.  On a
whole line the session takes the right mention at every place of the cursor exactly if nothing but
characters of one byte stands before the mentions.

What is shown depends on the key of the mention only.  So a mention that is missed does no harm if the
one that is taken in its place has the same key.

Main definitions:

* `Mention.Placed`, `Mention.placed` — the mentions of a line, each with the text before it;
* `Mention.Placed.index`, `Mention.Placed.byte` — the characters and the bytes before a mention;
* `Mention.lastBefore` — the last mention that starts before the cursor, in a given way of counting;
* `Mention.keyBefore` — its key.

Main results:

* `Mention.map_placed` — every mention starts between two characters;
* `Mention.keyOn?_eq` — the key of a line is that of the last mention, counted in bytes;
* `Mention.lastBefore_byte_eq_iff` — when both ways of counting come to the same mention;
* `Mention.keyBefore_byte_eq_iff` — when they come to the same key;
* `Session.hover_counts_characters_iff` — **when a session counts characters**.
-/

import SchemaScope.Proofs.Resource.Snippets
import SchemaScope.Proofs.Resource.Transparency
import SchemaScope.Session

set_option autoImplicit false

namespace SchemaScope

/-! ### Characters and bytes -/

namespace Utf8

theorem length_le_size (cs : List Char) : cs.length ≤ size cs := by
  induction cs with
  | nil => exact Nat.le_refl 0
  | cons c cs ih =>
      have hpos := Char.utf8Size_pos c
      rw [List.length_cons, size_cons]
      omega

/-- A text has as many bytes as characters exactly if each of them takes one byte. -/
theorem size_le_length_iff (cs : List Char) :
    size cs ≤ cs.length ↔ ∀ c ∈ cs, c.val ≤ 0x7f := by
  induction cs with
  | nil => simp
  | cons c cs ih =>
      have hpos := Char.utf8Size_pos c
      have hle := length_le_size cs
      rw [List.length_cons, size_cons, List.forall_mem_cons, ← ih, ← Char.utf8Size_eq_one_iff]
      constructor
      · intro h
        exact ⟨by omega, by omega⟩
      · rintro ⟨hone, hrest⟩
        omega

end Utf8

namespace Mention

/-! ### Mentions in their places -/

/-- A mention with the text of the line before it. -/
structure Placed where
  before : List Char
  mention : Mention
  deriving DecidableEq

/-- The number of characters before a mention. -/
def Placed.index (p : Placed) : Nat := p.before.length

/-- The number of bytes before a mention. -/
def Placed.byte (p : Placed) : Nat := Utf8.size p.before

/-- The mentions of a line from left to right, each with the text before it. -/
def placed (line : List Char) : List Placed :=
  (all line).filterMap fun m => (Utf8.splitAt? m.1 line).map fun parts => ⟨parts.1, m.2⟩

/-- A mention opens what stands behind the text before it. -/
theorem exists_of_mem_allFrom {byte skip : Nat} {text : List Char} {m : Nat × Mention}
    (h : m ∈ allFrom byte skip text) :
    ∃ front rest, text = front ++ rest ∧ m.1 = byte + Utf8.size front ∧ at? rest = some m.2 := by
  induction text generalizing byte skip with
  | nil => simp [allFrom] at h
  | cons c text ih =>
      have hlater {skip : Nat} (h : m ∈ allFrom (byte + c.utf8Size) skip text) :
          ∃ front rest, c :: text = front ++ rest ∧ m.1 = byte + Utf8.size front ∧
            at? rest = some m.2 := by
        obtain ⟨front, rest, rfl, hbyte, hat⟩ := ih h
        exact ⟨c :: front, rest, rfl, by rw [hbyte, Utf8.size_cons, Nat.add_assoc], hat⟩
      cases skip with
      | succ skip => exact hlater h
      | zero =>
          rw [allFrom] at h
          split at h
          · next found hfound =>
            rcases List.mem_cons.1 h with rfl | h
            · exact ⟨[], c :: text, rfl, rfl, hfound⟩
            · exact hlater h
          · exact hlater h

/-- Mentions are found from left to right. -/
theorem pairwise_allFrom (byte skip : Nat) (text : List Char) :
    (allFrom byte skip text).Pairwise fun a b => a.1 < b.1 := by
  induction text generalizing byte skip with
  | nil => exact List.Pairwise.nil
  | cons c text ih =>
      cases skip with
      | succ skip => exact ih _ _
      | zero =>
          rw [allFrom]
          split
          · refine List.pairwise_cons.2 ⟨?_, ih _ _⟩
            intro later hlater
            have hpos := Char.utf8Size_pos c
            have hle := le_of_mem_allFrom hlater
            show byte < later.1
            omega
          · exact ih _ _

/-- Every mention starts between two characters. -/
theorem map_placed (line : List Char) :
    (placed line).map (fun p => (p.byte, p.mention)) = all line := by
  have hsplit : ∀ m ∈ all line,
      ((Utf8.splitAt? m.1 line).map fun parts => (⟨parts.1, m.2⟩ : Placed)).map
        (fun p => (p.byte, p.mention)) = some m := by
    intro m hm
    obtain ⟨front, rest, hline, hbyte, -⟩ := exists_of_mem_allFrom hm
    rw [Nat.zero_add] at hbyte
    have hparts : Utf8.splitAt? m.1 line = some (front, rest) :=
      Utf8.splitAt?_eq_some_iff.2 ⟨hline, hbyte⟩
    rw [hparts, Option.map_some, Option.map_some, Placed.byte, ← hbyte]
  rw [placed, List.map_filterMap, List.filterMap_congr hsplit, List.filterMap_some]

theorem pairwise_placed (line : List Char) : (placed line).Pairwise fun p q => p.byte < q.byte := by
  have h := pairwise_allFrom 0 0 line
  rw [← all, ← map_placed, List.pairwise_map] at h
  exact h

theorem Placed.index_le_byte (p : Placed) : p.index ≤ p.byte := Utf8.length_le_size p.before

/-! ### The mention before the cursor -/

/-- The last mention that starts before the cursor, where `count` counts what stands before a
mention. -/
def lastBefore (count : Placed → Nat) (cursor : Nat) (line : List Char) : Option Placed :=
  ((placed line).filter fun p => count p < cursor).getLast?

/-- The key of the last mention that starts before the cursor. -/
def keyBefore (count : Placed → Nat) (cursor : Nat) (line : List Char) : Option String :=
  (lastBefore count cursor line).map fun p => String.ofList p.mention.key

/-- Mentions that start before an offset come first. -/
theorem takeWhile_eq_filter {ms : List (Nat × Mention)} (h : ms.Pairwise fun a b => a.1 < b.1)
    (offset : Nat) :
    (ms.takeWhile fun m => m.1 < offset) = ms.filter fun m => m.1 < offset := by
  induction ms with
  | nil => rfl
  | cons m ms ih =>
      obtain ⟨hm, hms⟩ := List.pairwise_cons.1 h
      by_cases hlt : m.1 < offset
      · rw [List.takeWhile_cons_of_pos (by simpa using hlt),
          List.filter_cons_of_pos (by simpa using hlt), ih hms]
      · rw [List.takeWhile_cons_of_neg (by simpa using hlt),
          List.filter_cons_of_neg (by simpa using hlt), eq_comm, List.filter_eq_nil_iff]
        intro later hlater
        have hbehind := hm later hlater
        simp only [decide_eq_true_eq]
        omega

/-- The key of a line is that of the last mention before the offset, counted in bytes. -/
theorem keyOn?_eq (line : String) (offset : Nat) :
    keyOn? line (some offset) = keyBefore Placed.byte offset line.toList := by
  have hfilter : ((all line.toList).takeWhile fun m => m.1 < offset) =
      ((placed line.toList).filter fun p => p.byte < offset).map fun p => (p.byte, p.mention) := by
    rw [all, takeWhile_eq_filter (pairwise_allFrom 0 0 line.toList), ← all, ← map_placed,
      List.filter_map]
    rfl
  simp only [keyOn?, hfilter, List.getLast?_map, Option.map_map, keyBefore, lastBefore]
  rfl

/-- A mention is the last one, or starts before it. -/
theorem eq_or_byte_lt_of_getLast? {ps : List Placed} (h : ps.Pairwise fun p q => p.byte < q.byte)
    {p last : Placed} (hp : p ∈ ps) (hlast : ps.getLast? = some last) :
    p = last ∨ p.byte < last.byte := by
  obtain ⟨earlier, rfl⟩ := List.getLast?_eq_some_iff.1 hlast
  rcases List.mem_append.1 hp with hp | hp
  · exact .inr ((List.pairwise_append.1 h).2.2 p hp last (by simp))
  · exact .inl (List.mem_singleton.1 hp)

/-- The mention that is taken is the one that is meant, or starts before it. -/
theorem eq_or_byte_lt {line : List Char} {cursor : Nat} {taken meant : Placed}
    (htaken : lastBefore Placed.byte cursor line = some taken)
    (hmeant : lastBefore Placed.index cursor line = some meant) :
    taken = meant ∨ taken.byte < meant.byte := by
  obtain ⟨hmem, hbyte⟩ := List.mem_filter.1 (List.mem_of_getLast? htaken)
  have hle := taken.index_le_byte
  simp only [decide_eq_true_eq] at hbyte
  refine eq_or_byte_lt_of_getLast? ((pairwise_placed line).filter _) ?_ hmeant
  exact List.mem_filter.2 ⟨hmem, by simp only [decide_eq_true_eq]; omega⟩

/-- Both ways of counting come to the same mention exactly if every mention that starts before the
cursor by its characters does so by its bytes. -/
theorem lastBefore_byte_eq_iff (line : List Char) (cursor : Nat) :
    lastBefore Placed.byte cursor line = lastBefore Placed.index cursor line ↔
      ∀ p ∈ placed line, p.index < cursor → p.byte < cursor := by
  constructor
  · intro heq p hp hindex
    have hmem : p ∈ (placed line).filter fun p => p.index < cursor :=
      List.mem_filter.2 ⟨hp, by simpa using hindex⟩
    obtain ⟨last, hlast⟩ : ∃ last, lastBefore Placed.index cursor line = some last :=
      ⟨_, List.getLast?_eq_some_getLast (List.ne_nil_of_mem hmem)⟩
    -- the mention found by its bytes is the last one, and no earlier one has more bytes before it
    have hle : p.byte ≤ last.byte := by
      rcases eq_or_byte_lt_of_getLast? ((pairwise_placed line).filter _) hmem hlast with rfl | hlt
      · exact Nat.le_refl _
      · exact Nat.le_of_lt hlt
    rw [← heq] at hlast
    have hbyte : last.byte < cursor := by
      simpa using (List.mem_filter.1 (List.mem_of_getLast? hlast)).2
    omega
  · intro h
    refine congrArg List.getLast? (List.filter_congr ?_)
    intro p hp
    have hle := p.index_le_byte
    have hlt := h p hp
    simp only [decide_eq_decide]
    omega

/-- Counted in bytes no more mentions start before the cursor than counted in characters. -/
theorem lastBefore_byte_eq_none {line : List Char} {cursor : Nat}
    (h : lastBefore Placed.index cursor line = none) :
    lastBefore Placed.byte cursor line = none := by
  rw [lastBefore, List.getLast?_eq_none_iff, List.filter_eq_nil_iff] at h ⊢
  intro p hp
  have hle := p.index_le_byte
  have hnot := h p hp
  simp only [decide_eq_true_eq] at hnot ⊢
  omega

/-- Both ways of counting come to the same key exactly if they come to the same mention, or if two
mentions have one key and the first of them is taken for the second. -/
theorem keyBefore_byte_eq_iff (line : List Char) (cursor : Nat) :
    keyBefore Placed.byte cursor line = keyBefore Placed.index cursor line ↔
      (∀ p ∈ placed line, p.index < cursor → p.byte < cursor) ∨
        ∃ taken meant, lastBefore Placed.byte cursor line = some taken ∧
          lastBefore Placed.index cursor line = some meant ∧ taken.byte < meant.byte ∧
            taken.mention.key = meant.mention.key := by
  rw [← lastBefore_byte_eq_iff]
  constructor
  · intro hkey
    by_cases hsame : lastBefore Placed.byte cursor line = lastBefore Placed.index cursor line
    · exact .inl hsame
    · right
      cases hmeant : lastBefore Placed.index cursor line with
      | none => exact absurd ((lastBefore_byte_eq_none hmeant).trans hmeant.symm) hsame
      | some meant =>
          cases htaken : lastBefore Placed.byte cursor line with
          | none => simp [keyBefore, htaken, hmeant] at hkey
          | some taken =>
              refine ⟨taken, meant, rfl, rfl, ?_, ?_⟩
              · refine (eq_or_byte_lt htaken hmeant).resolve_left ?_
                rintro rfl
                exact hsame (htaken.trans hmeant.symm)
              · simpa [keyBefore, htaken, hmeant, String.ofList_inj] using hkey
  · rintro (hsame | ⟨taken, meant, htaken, hmeant, -, hkey⟩)
    · rw [keyBefore, keyBefore, hsame]
    · simp [keyBefore, htaken, hmeant, hkey]

/-- Both ways of counting come to the same mention at every place of the cursor exactly if the
characters before the mentions take one byte each. -/
theorem forall_lastBefore_byte_eq_iff (line : List Char) :
    (∀ cursor, lastBefore Placed.byte cursor line = lastBefore Placed.index cursor line) ↔
      ∀ p ∈ placed line, ∀ c ∈ p.before, c.val ≤ 0x7f := by
  simp only [lastBefore_byte_eq_iff]
  constructor
  · intro h p hp
    have hlt := h (p.index + 1) p hp (Nat.lt_succ_self _)
    exact (Utf8.size_le_length_iff p.before).1 (Nat.lt_succ_iff.1 hlt)
  · intro h cursor p hp hindex
    have hle : p.byte ≤ p.index := (Utf8.size_le_length_iff p.before).2 (h p hp)
    omega

end Mention

/-! ### Sessions -/

namespace Session

variable {P : Script.Parser}

/-- **When a session counts characters.**  Where the resources of the document can be read, a
session shows the string with the key of the last mention that starts before the cursor, counted in
bytes, and nothing if there is none.  This is the last mention counted in characters exactly if every
mention that starts before the cursor by its characters does so by its bytes; and at every place of
the cursor exactly if the characters before the mentions of the line take one byte each.  The key is
the one counted in characters if the mention is, and otherwise exactly if an earlier mention with the
same key is taken for it. -/
theorem hover_counts_characters_iff (s : Session P) (files : FileStore) (set : ResourceSet)
    (hset : (s.currentResources files).1 = some set) (line : String) :
    (∀ cursor, (s.hover files line cursor).1 =
      (Mention.keyBefore Mention.Placed.byte cursor line.toList).map set.hover) ∧
    (∀ cursor, Mention.keyBefore Mention.Placed.byte cursor line.toList =
        Mention.keyBefore Mention.Placed.index cursor line.toList ↔
      (∀ p ∈ Mention.placed line.toList, p.index < cursor → p.byte < cursor) ∨
        ∃ taken meant, Mention.lastBefore Mention.Placed.byte cursor line.toList = some taken ∧
          Mention.lastBefore Mention.Placed.index cursor line.toList = some meant ∧
            taken.byte < meant.byte ∧ taken.mention.key = meant.mention.key) ∧
    (∀ cursor, Mention.lastBefore Mention.Placed.byte cursor line.toList =
        Mention.lastBefore Mention.Placed.index cursor line.toList ↔
      ∀ p ∈ Mention.placed line.toList, p.index < cursor → p.byte < cursor) ∧
    ((∀ cursor, Mention.lastBefore Mention.Placed.byte cursor line.toList =
        Mention.lastBefore Mention.Placed.index cursor line.toList) ↔
      ∀ p ∈ Mention.placed line.toList, ∀ c ∈ p.before, c.val ≤ 0x7f) := by
  refine ⟨?_, Mention.keyBefore_byte_eq_iff line.toList,
    Mention.lastBefore_byte_eq_iff line.toList, Mention.forall_lastBefore_byte_eq_iff line.toList⟩
  intro cursor
  simp only [hover, Mention.keyOn?_eq]
  cases Mention.keyBefore Mention.Placed.byte cursor line.toList with
  | none => rfl
  | some key => simp [hset]

/-- A mention behind a character of two bytes. -/
def accentedLine : String := "é Resources.Strings.Title"

/-- A session with a document whose resources can be read. -/
def readingSession : Session Script.Parser.standard :=
  (activate .standard).update (some ⟨"Schemas/A/A.js"⟩) ""

/-- Two characters stand before the mention, and the cursor behind the third one does not find it;
behind the fourth one it does. -/
theorem hover_counts_characters_iff_accentedLine :
    ∃ set, (readingSession.currentResources ResourceCache.wholeSchema).1 = some set ∧
      Mention.keyBefore Mention.Placed.index 3 accentedLine.toList = some "Title" ∧
      (readingSession.hover ResourceCache.wholeSchema accentedLine 3).1 = none ∧
      (readingSession.hover ResourceCache.wholeSchema accentedLine 4).1 =
        some (set.hover "Title") ∧
      Mention.keyBefore Mention.Placed.byte 3 accentedLine.toList ≠
        Mention.keyBefore Mention.Placed.index 3 accentedLine.toList := by
  have hsome : (readingSession.currentResources ResourceCache.wholeSchema).1.isSome = true := by
    decide +kernel
  obtain ⟨set, hset⟩ := Option.isSome_iff_exists.1 hsome
  obtain ⟨hhover, -⟩ :=
    hover_counts_characters_iff readingSession ResourceCache.wholeSchema set hset accentedLine
  have hmissed : Mention.keyBefore Mention.Placed.byte 3 accentedLine.toList = none := by
    decide +kernel
  have hfound : Mention.keyBefore Mention.Placed.byte 4 accentedLine.toList = some "Title" := by
    decide +kernel
  have hmeant : Mention.keyBefore Mention.Placed.index 3 accentedLine.toList = some "Title" := by
    decide +kernel
  refine ⟨set, hset, hmeant, by rw [hhover, hmissed]; rfl, by rw [hhover, hfound]; rfl, ?_⟩
  rw [hmissed, hmeant]
  exact (Option.some_ne_none _).symm

end Session

end SchemaScope
