/-
**Snippets are recognised.**

An editor inserts a reference to a localizable string into a line, and later asks for the key under
the cursor.  The mentions of a line are found from left to right and do not overlap, so a mention
that starts before the inserted text could take a part of it away.  A character that is no part of a
mention keeps that from happening: besides word characters, dots, quotes and white space only a
colon can stand in a mention, and then white space has to follow, with which a reference does not
start.

Main definitions:

* `Mention.IsFence` — a character that a mention does not hold, colons apart;
* `Mention.Unfenced` — a text in which fences are followed by white space;
* `Mention.Sealed` — a text that the mentions in it do not leave;
* `Mention.Fenced` — a text that ends with a fence, a quote apart.

Main results:

* `Mention.exists_taken_of_at?` — the text of a mention is unfenced;
* `Mention.allFrom_append_of_sealed` — **behind a sealed text mentions are found as if it were not
  there**;
* `Mention.sealed_of_fenced` — a fenced text is sealed before a reference;
* `Mention.snippet_recognised` — **a snippet is recognised** wherever the cursor stands in it.
-/

import Mathlib.Data.List.Basic
import Mathlib.Data.List.TakeWhile
import SchemaScope.Proofs.Resource.Entries
import SchemaScope.Proofs.Source.Offsets
import SchemaScope.Resource.Mention
import SchemaScope.Resource.Set

set_option autoImplicit false

namespace SchemaScope.Mention

open Text

/-! ### What a mention takes -/

/-- A character that is no word character, dot, quote or white space. -/
def IsFence (c : Char) : Prop :=
  isWordChar c = false ∧ c ≠ '.' ∧ c ≠ '"' ∧ isWhiteSpace c = false

instance (c : Char) : Decidable (IsFence c) :=
  inferInstanceAs (Decidable (isWordChar c = false ∧ c ≠ '.' ∧ c ≠ '"' ∧ isWhiteSpace c = false))

/-- Every fence in the text is followed by white space in it. -/
def Unfenced (taken : List Char) : Prop :=
  ∀ front c back, taken = front ++ c :: back → IsFence c →
    ∃ d more, back = d :: more ∧ isWhiteSpace d = true

theorem unfenced_of_forall {taken : List Char} (h : ∀ c ∈ taken, ¬ IsFence c) : Unfenced taken := by
  rintro front c back rfl hc
  exact absurd hc (h c (by simp))

theorem unfenced_of_all {taken : List Char} (h : (taken.all fun c => ¬ IsFence c) = true) :
    Unfenced taken := unfenced_of_forall (by simpa using h)

theorem unfenced_of_word {taken : List Char} (h : ∀ c ∈ taken, isWordChar c = true) :
    Unfenced taken := by
  refine unfenced_of_forall fun c hc hfence => ?_
  have hword := hfence.1
  rw [h c hc] at hword
  cases hword

theorem Unfenced.append {a b : List Char} (ha : Unfenced a) (hb : Unfenced b) :
    Unfenced (a ++ b) := by
  intro front c back h hc
  rcases List.append_eq_append_iff.1 h with ⟨mid, rfl, hmid⟩ | ⟨mid, rfl, hmid⟩
  · exact hb mid c back hmid hc
  · cases mid with
    | nil => exact hb [] c back hmid.symm hc
    | cons d mid =>
        obtain ⟨rfl, rfl⟩ := List.cons.inj hmid
        obtain ⟨d, more, rfl, hd⟩ := ha front c mid rfl hc
        exact ⟨d, more ++ b, rfl, hd⟩

/-- A colon with white space behind it is no obstacle. -/
theorem unfenced_colon {blanks : List Char} (hne : blanks ≠ [])
    (h : ∀ c ∈ blanks, isWhiteSpace c = true) : Unfenced (':' :: blanks) := by
  intro front c back heq hc
  cases front with
  | nil =>
      obtain ⟨-, rfl⟩ := List.cons.inj heq
      obtain ⟨d, more, rfl⟩ := List.exists_cons_of_ne_nil hne
      exact ⟨d, more, rfl, h d (by simp)⟩
  | cons d front =>
      obtain ⟨-, rfl⟩ := List.cons.inj heq
      have hblank := h c (by simp)
      rw [hc.2.2.2] at hblank
      cases hblank

theorem exists_dropQuote (text : List Char) :
    ∃ quote, text = quote ++ dropQuote text ∧ Unfenced quote := by
  unfold dropQuote
  split
  · exact ⟨['"'], rfl, unfenced_of_all (by decide)⟩
  · exact ⟨[], rfl, unfenced_of_all rfl⟩

/-- A key with its quotes is unfenced, and ends the mention. -/
theorem exists_taken_of_keyAt? {front rest : List Char} {m : Mention} (hfront : Unfenced front)
    (h : keyAt? (front ++ rest) rest = some m) :
    ∃ taken more, front ++ rest = taken ++ more ∧ taken.length = m.width ∧ Unfenced taken := by
  simp only [keyAt?] at h
  obtain ⟨opened, hopened, hquote⟩ := exists_dropQuote rest
  generalize dropQuote rest = inner at h hopened
  have hkey : inner.takeWhile isWordChar ++ inner.drop (inner.takeWhile isWordChar).length =
      inner := List.prefix_iff_eq_append.1 (List.takeWhile_prefix isWordChar)
  have hword : Unfenced (inner.takeWhile isWordChar) :=
    unfenced_of_word fun c hc => List.mem_takeWhile_imp hc
  generalize inner.takeWhile isWordChar = key at h hkey hword
  obtain ⟨closed, hclosed, hquote'⟩ := exists_dropQuote (inner.drop key.length)
  generalize dropQuote (inner.drop key.length) = more at h hclosed
  have hwhole : front ++ rest = front ++ opened ++ key ++ closed ++ more := by
    rw [hopened, ← hkey, hclosed]
    simp
  split at h
  · cases h
  · refine ⟨front ++ opened ++ key ++ closed, more, hwhole, ?_,
      ((hfront.append hquote).append hword).append hquote'⟩
    rw [← Option.some.inj h, hwhole]
    simp only [List.length_append]
    omega

/-- The name of a table is unfenced. -/
theorem exists_front_of_afterTable? {text rest : List Char} (h : afterTable? text = some rest) :
    ∃ front, text = front ++ rest ∧ Unfenced front := by
  have hsplit (label : List Char) (hlabel : Unfenced label)
      (hrest : afterText? label (text.dropWhile isWordChar) = some rest) :
      ∃ front, text = front ++ rest ∧ Unfenced front := by
    refine ⟨text.takeWhile isWordChar ++ label, ?_, ?_⟩
    · rw [List.append_assoc, ← afterText?_eq_some hrest, List.takeWhile_append_dropWhile]
    · exact (unfenced_of_word fun c hc => List.mem_takeWhile_imp hc).append hlabel
  rcases Option.or_eq_some_iff.1 h with h | ⟨-, h⟩
  · exact hsplit _ (unfenced_of_all (by decide +kernel)) h
  · exact hsplit _ (unfenced_of_all (by decide +kernel)) h

/-- The key of a `captionName` member is unfenced, the colon included. -/
theorem exists_front_of_afterCaptionName? {text rest : List Char}
    (h : afterCaptionName? text = some rest) :
    ∃ front, text = front ++ rest ∧ Unfenced front := by
  simp only [afterCaptionName?, Option.bind_eq_bind, Option.bind_eq_some_iff] at h
  obtain ⟨afterName, hname, afterColon, hcolon, hrest⟩ := h
  split at hrest
  · rename_i hlt
    obtain rfl := Option.some.inj hrest
    obtain ⟨opened, hopened, hquote⟩ := exists_dropQuote text
    obtain ⟨closed, hclosed, hquote'⟩ := exists_dropQuote afterName
    have hblanks : afterColon.takeWhile isWhiteSpace ++ afterColon.dropWhile isWhiteSpace =
        afterColon := List.takeWhile_append_dropWhile
    refine ⟨opened ++ "captionName".toList ++ closed ++ ':' :: afterColon.takeWhile isWhiteSpace,
      ?_, ?_⟩
    · rw [hopened, afterText?_eq_some hname, hclosed, afterText?_eq_some hcolon]
      simp [hblanks]
    · have hne : afterColon.takeWhile isWhiteSpace ≠ [] := by
        intro hnil
        rw [hnil, List.nil_append] at hblanks
        rw [hblanks] at hlt
        exact Nat.lt_irrefl _ hlt
      have hlabel : Unfenced "captionName".toList := unfenced_of_all (by decide +kernel)
      exact ((hquote.append hlabel).append hquote').append
        (unfenced_colon hne fun c hc => List.mem_takeWhile_imp hc)
  · cases hrest

/-- The text of a mention is unfenced. -/
theorem exists_taken_of_at? {text : List Char} {m : Mention} (h : at? text = some m) :
    ∃ taken rest, text = taken ++ rest ∧ taken.length = m.width ∧ Unfenced taken := by
  rcases Option.or_eq_some_iff.1 h with h | ⟨-, h⟩
  · obtain ⟨rest, htable, hkey⟩ := Option.bind_eq_some_iff.1 h
    obtain ⟨front, rfl, hfront⟩ := exists_front_of_afterTable? htable
    exact exists_taken_of_keyAt? hfront hkey
  · obtain ⟨rest, hcaption, hkey⟩ := Option.bind_eq_some_iff.1 h
    obtain ⟨front, rfl, hfront⟩ := exists_front_of_afterCaptionName? hcaption
    exact exists_taken_of_keyAt? hfront hkey

/-- A mention ends before a fence that has no white space behind it. -/
theorem width_le_of_fence {front more : List Char} {c d : Char} {m : Mention} (hc : IsFence c)
    (hd : isWhiteSpace d = false) (h : at? (front ++ c :: d :: more) = some m) :
    m.width ≤ front.length := by
  obtain ⟨taken, rest, heq, hwidth, htaken⟩ := exists_taken_of_at? h
  rw [← hwidth]
  rcases List.append_eq_append_iff.1 heq with ⟨mid, rfl, hmid⟩ | ⟨mid, rfl, -⟩
  · cases mid with
    | nil => simp
    | cons e mid =>
        obtain ⟨rfl, hback⟩ := List.cons.inj hmid
        obtain ⟨d', more', rfl, hd'⟩ := htaken front c mid rfl hc
        obtain ⟨rfl, -⟩ := List.cons.inj hback
        rw [hd] at hd'
        cases hd'
  · simp

/-! ### Scanning -/

/-- No mention that starts in a text goes past its end, given what follows. -/
def Sealed (text rest : List Char) : Prop :=
  ∀ part, part <:+ text → part ≠ [] → ∀ m, at? (part ++ rest) = some m → m.width ≤ part.length

theorem Sealed.tail {c : Char} {text rest : List Char} (h : Sealed (c :: text) rest) :
    Sealed text rest :=
  fun part hpart => h part (hpart.trans (List.suffix_cons c text))

/-- The mentions behind a sealed text are found as if it were not there, and those in it start
before. -/
theorem allFrom_append_of_sealed {text rest : List Char} (h : Sealed text rest) {skip : Nat}
    (hskip : skip ≤ text.length) (byte : Nat) :
    ∃ inside, allFrom byte skip (text ++ rest) =
        inside ++ allFrom (byte + Utf8.size text) 0 rest ∧
      ∀ m ∈ inside, m.1 < byte + Utf8.size text := by
  -- along the text; what is left to skip never reaches past its end
  induction text generalizing byte skip with
  | nil =>
      obtain rfl : skip = 0 := by simpa using hskip
      exact ⟨[], by simp, by simp⟩
  | cons c text ih =>
      have hpos := Char.utf8Size_pos c
      have hsize : byte + c.utf8Size + Utf8.size text = byte + Utf8.size (c :: text) := by
        rw [Utf8.size_cons, Nat.add_assoc]
      cases skip with
      | succ skip =>
          obtain ⟨inside, heq, hlt⟩ := ih h.tail (by simpa using hskip) (byte + c.utf8Size)
          rw [hsize] at heq hlt
          exact ⟨inside, heq, hlt⟩
      | zero =>
          rw [List.cons_append, allFrom]
          cases hat : at? (c :: (text ++ rest)) with
          | none =>
              obtain ⟨inside, heq, hlt⟩ := ih h.tail (Nat.zero_le _) (byte + c.utf8Size)
              rw [hsize] at heq hlt
              exact ⟨inside, heq, hlt⟩
          | some m =>
              have hwidth : m.width ≤ text.length + 1 :=
                h (c :: text) (List.suffix_refl _) (by simp) m hat
              have hleft : m.width - 1 ≤ text.length := by omega
              obtain ⟨inside, heq, hlt⟩ := ih h.tail hleft (byte + c.utf8Size)
              rw [hsize] at heq hlt
              refine ⟨(byte, m) :: inside, by simp [heq], ?_⟩
              intro other hother
              rcases List.mem_cons.1 hother with rfl | hother
              · simp only [Utf8.size_cons]
                omega
              · exact hlt other hother

/-- A mention starts behind the text that is skipped before. -/
theorem le_of_mem_allFrom {byte skip : Nat} {text : List Char} {m : Nat × Mention}
    (h : m ∈ allFrom byte skip text) : byte + Utf8.size (text.take skip) ≤ m.1 := by
  induction text generalizing byte skip with
  | nil => simp [allFrom] at h
  | cons c text ih =>
      cases skip with
      | succ skip =>
          have hle := ih h
          rw [List.take_succ_cons, Utf8.size_cons]
          omega
      | zero =>
          rw [allFrom] at h
          split at h
          · rcases List.mem_cons.1 h with rfl | h
            · simp
            · have hle := ih h
              rw [List.take_zero, Utf8.size_nil]
              omega
          · have hle := ih h
            rw [List.take_zero, Utf8.size_nil]
            omega

/-- The mention that opens a text is the first one, and the others start behind it. -/
theorem exists_allFrom_of_at? {text : List Char} {m : Mention} (h : at? text = some m)
    (byte : Nat) :
    ∃ later, allFrom byte 0 text = (byte, m) :: later ∧
      ∀ other ∈ later, byte + Utf8.size (text.take m.width) ≤ other.1 := by
  cases text with
  | nil => cases h
  | cons c text =>
      refine ⟨allFrom (byte + c.utf8Size) (m.width - 1) text, by simp [allFrom, h], ?_⟩
      intro other hother
      have hle := le_of_mem_allFrom hother
      cases hwidth : m.width with
      | zero =>
          rw [List.take_zero, Utf8.size_nil]
          omega
      | succ width =>
          rw [hwidth, Nat.add_sub_cancel] at hle
          rw [List.take_succ_cons, Utf8.size_cons]
          omega

/-- The last mention that starts before an offset. -/
theorem getLast?_takeWhile_lt {inside later : List (Nat × Mention)} {start offset : Nat}
    {m : Mention} (hinside : ∀ other ∈ inside, other.1 < offset) (hstart : start < offset)
    (hlater : ∀ other ∈ later, offset ≤ other.1) :
    ((inside ++ (start, m) :: later).takeWhile fun other => other.1 < offset).getLast? =
      some (start, m) := by
  have hnil : (later.takeWhile fun other => decide (other.1 < offset)) = [] := by
    cases later with
    | nil => rfl
    | cons other later =>
        have hle := hlater other (by simp)
        exact List.takeWhile_cons_of_neg (by simpa using hle)
  rw [List.takeWhile_append_of_pos (by simpa using hinside),
    List.takeWhile_cons_of_pos (by simpa using hstart), hnil, List.getLast?_concat]

/-! ### References -/

/-- What a reference opens with, before its key. -/
def IsTable (table : List Char) : Prop :=
  table = "Resources.Strings.".toList ∨ table = "resources.localizableStrings.".toList

/-- A text that is empty, or ends with a fence, or does so before a quote. -/
def Fenced (before : List Char) : Prop :=
  ∃ core, (before = core ∨ before = core ++ ['"']) ∧ ∀ c, core.getLast? = some c → IsFence c

theorem IsTable.afterTable? {table : List Char} (h : IsTable table) (rest : List Char) :
    afterTable? (table ++ rest) = some rest := by
  rcases h with rfl | rfl <;> rfl

/-- A quote does not belong to the reference behind it. -/
theorem IsTable.at?_quote {table : List Char} (h : IsTable table) (rest : List Char) :
    at? ('"' :: (table ++ rest)) = none := by
  rcases h with rfl | rfl <;> rfl

theorem IsTable.exists_cons {table : List Char} (h : IsTable table) :
    ∃ c more, table = c :: more ∧ isWhiteSpace c = false := by
  rcases h with rfl | rfl
  · exact ⟨'R', "esources.Strings.".toList, by decide +kernel, by decide⟩
  · exact ⟨'r', "esources.localizableStrings.".toList, by decide +kernel, by decide⟩

theorem dropQuote_key {key : List Char} (hkey : Locale.IsKey key) (rest : List Char) :
    dropQuote (key ++ rest) = key ++ rest := by
  obtain ⟨c, key, rfl⟩ := List.exists_cons_of_ne_nil hkey.1
  have hquote : '"' ∉ c :: key := hkey.notMem (by decide)
  rw [List.cons_append, dropQuote]
  intro more h
  obtain ⟨rfl, -⟩ := List.cons.inj h
  exact hquote List.mem_cons_self

/-- A reference is a mention of its key, and all of it belongs to the mention. -/
theorem IsTable.exists_at? {table key after : List Char} (h : IsTable table)
    (hkey : Locale.IsKey key) (hafter : ∀ c, after.head? = some c → isWordChar c = false) :
    ∃ width, at? (table ++ key ++ after) = some ⟨key, width⟩ ∧ (table ++ key).length ≤ width := by
  obtain ⟨quote, hquote, -⟩ := exists_dropQuote after
  have hne : key.isEmpty = false := by simpa using hkey.1
  refine ⟨(table ++ key ++ after).length - (dropQuote after).length, ?_, ?_⟩
  · rw [at?, List.append_assoc, h.afterTable?, Option.bind_some, keyAt?]
    simp only [dropQuote_key hkey, hkey.takeWhile_append hafter, hne, Bool.false_eq_true, if_false,
      List.drop_left, Option.some_or]
  · have hlength := congrArg List.length hquote
    simp only [List.length_append] at hlength ⊢
    omega

/-! ### Fences -/

/-- A mention that starts before the fence at the end of a text ends before it, too. -/
theorem width_le_of_suffix {core part more : List Char} {d : Char} {m : Mention}
    (hcore : ∀ c, core.getLast? = some c → IsFence c) (hpart : part <:+ core) (hne : part ≠ [])
    (hd : isWhiteSpace d = false) (h : at? (part ++ d :: more) = some m) :
    m.width ≤ part.length := by
  obtain ⟨front, c, rfl⟩ := (List.eq_nil_or_concat part).resolve_left hne
  obtain ⟨earlier, rfl⟩ := hpart
  have hc : IsFence c := hcore c (by simp)
  have hwidth : m.width ≤ front.length := width_le_of_fence hc hd (by simpa using h)
  simp only [List.concat_eq_append, List.length_append]
  omega

/-- A fenced text is sealed before a reference. -/
theorem sealed_of_fenced {before table : List Char} (hbefore : Fenced before)
    (htable : IsTable table) (rest : List Char) : Sealed before (table ++ rest) := by
  intro part hpart hne m hat
  obtain ⟨core, hsplit, hcore⟩ := hbefore
  rcases hsplit with rfl | rfl
  · obtain ⟨d, more, rfl, hd⟩ := htable.exists_cons
    exact width_le_of_suffix hcore hpart hne hd hat
  · obtain ⟨part, rfl, hsuffix⟩ := (List.suffix_concat_iff.1 hpart).resolve_left hne
    rw [List.append_assoc, List.singleton_append] at hat
    by_cases hnil : part = []
    · rw [hnil, List.nil_append, htable.at?_quote] at hat
      cases hat
    · have hwidth := width_le_of_suffix hcore hsuffix hnil (by decide) hat
      rw [List.length_append]
      omega

/-! ### Snippets -/

theorem exists_table_of_snippet {schemaName key snippet : String}
    (h : snippet = (Snippets.of schemaName key).binding ∨
      snippet = (Snippets.of schemaName key).module) :
    ∃ table, IsTable table ∧ snippet.toList = table ++ key.toList := by
  rcases h with rfl | rfl
  · exact ⟨_, .inl rfl, String.toList_append⟩
  · exact ⟨_, .inr rfl, String.toList_append⟩

/-- **A snippet is recognised.**  A reference to a string that was inserted behind a fence, and with
no word character behind it, is what the line mentions at every offset in the reference, whatever
else the line mentions. -/
theorem snippet_recognised (schemaName key snippet before after : String) (offset : Nat)
    (hkey : Locale.IsKey key.toList)
    (hsnippet : snippet = (Snippets.of schemaName key).binding ∨
      snippet = (Snippets.of schemaName key).module)
    (hbefore : Fenced before.toList)
    (hafter : ∀ c, after.toList.head? = some c → isWordChar c = false)
    (hstart : before.utf8ByteSize < offset)
    (hstop : offset ≤ before.utf8ByteSize + snippet.utf8ByteSize) :
    keyOn? (before ++ snippet ++ after) (some offset) = some key := by
  obtain ⟨table, htable, hsplit⟩ := exists_table_of_snippet hsnippet
  obtain ⟨width, hat, hwidth⟩ := htable.exists_at? hkey hafter
  rw [← hsplit] at hat hwidth
  rw [← Utf8.size_toList before] at hstart hstop
  rw [← Utf8.size_toList snippet] at hstop
  have hsealed : Sealed before.toList (snippet.toList ++ after.toList) := by
    rw [hsplit, List.append_assoc]
    exact sealed_of_fenced hbefore htable _
  obtain ⟨inside, hinside, hlt⟩ := allFrom_append_of_sealed hsealed (Nat.zero_le _) 0
  rw [Nat.zero_add] at hinside hlt
  obtain ⟨later, hlater, hle⟩ := exists_allFrom_of_at? hat (Utf8.size before.toList)
  have hall : all (before ++ snippet ++ after).toList =
      inside ++ (Utf8.size before.toList, ⟨key.toList, width⟩) :: later := by
    rw [String.toList_append, String.toList_append, List.append_assoc, all, hinside, hlater]
  have hbehind : ∀ other ∈ later, offset ≤ other.1 := by
    intro other hother
    have htake : (snippet.toList ++ after.toList).take width =
        snippet.toList ++ after.toList.take (width - snippet.toList.length) := by
      rw [List.take_append, List.take_of_length_le hwidth]
    have hbound := hle other hother
    rw [htake, Utf8.size_append] at hbound
    omega
  have hbefore' : ∀ other ∈ inside, other.1 < offset :=
    fun other hother => (hlt other hother).trans hstart
  simp only [keyOn?, hall, getLast?_takeWhile_lt hbefore' hstart hbehind, Option.map_some,
    String.ofList_toList]

/-- What stands before a snippet that was inserted between the quotes of a call. -/
def callFront : String := "é captionName: \"A\", b: Resources.Strings.B, t: f(\""

/-- What stands behind it. -/
def callBack : String := "\"), captionName: \"C\""

/-- With a mention on either side of it, the snippet of a call is recognised at its first and at its
last byte. -/
theorem snippet_recognised_call :
    keyOn? (callFront ++ "resources.localizableStrings.Title" ++ callBack)
        (some (callFront.utf8ByteSize + 1)) = some "Title" ∧
      keyOn? (callFront ++ "Resources.Strings.Title" ++ callBack)
        (some (callFront.utf8ByteSize + 23)) = some "Title" := by
  have hkey : Locale.IsKey "Title".toList := by decide +kernel
  have hbefore : Fenced callFront.toList := by
    refine ⟨callFront.toList.dropLast, .inr (by decide +kernel), fun c hc => ?_⟩
    have hlast : callFront.toList.dropLast.getLast? = some '(' := by decide +kernel
    obtain rfl : '(' = c := by simpa [hlast] using hc
    decide
  have hafter : ∀ c, callBack.toList.head? = some c → isWordChar c = false := by
    intro c hc
    have hhead : callBack.toList.head? = some '"' := by decide +kernel
    obtain rfl : '"' = c := by simpa [hhead] using hc
    decide
  constructor
  · exact snippet_recognised "Page" "Title" _ callFront callBack _ hkey (.inr (by decide +kernel))
      hbefore hafter (by omega) (by decide +kernel)
  · exact snippet_recognised "Page" "Title" _ callFront callBack _ hkey (.inl (by decide +kernel))
      hbefore hafter (by omega) (by decide +kernel)

end SchemaScope.Mention
