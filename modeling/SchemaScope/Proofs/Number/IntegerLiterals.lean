/-
**Integer literals and their values.**

A script writes an integer as a numeral in one of four bases, with single separators between its
digits, and with a suffix if it is a big integer.  The reader of scripts takes all of these as
numbers, but not all of them have a value: a numeral that opens with a zero and a letter has none if
the suffix follows it, or if it stands for a number of more than 63 bits.  A rule that asks for the
value of such a literal annotates nothing.  Decimal literals have a value, with the suffix and
without it, and whatever their size.

Main definitions:

* `Literal.Separated` — digits with single separators between them;
* `Literal.IntegerLiteral`, `Literal.IntegerLiteral.text` — integers as scripts write them;
* `Literal.IntegerLiteral.HasValue` — the literals that have a value.

Main results:

* `Literal.digitRun_append` — separated digits are scanned to their end;
* `Literal.IntegerLiteral.scanNumber_text` — every integer literal is a number of the grammar;
* `Literal.integerLiteral_value_iff` — **which integer literals have a value**, and are annotated.
-/

import SchemaScope.Proofs.Number.Numerals
import SchemaScope.Proofs.Highlight.TopDown

set_option autoImplicit false

namespace SchemaScope.Literal

open Script

/-! ### Separated digits -/

/-- The second text is the first with single separators between some of its characters. -/
inductive Separated : List Char → List Char → Prop
  | last (c : Char) : Separated [c] [c]
  | adjacent (c : Char) {digits text : List Char} (h : Separated digits text) :
      Separated (c :: digits) (c :: text)
  | apart (c : Char) {digits text : List Char} (h : Separated digits text) :
      Separated (c :: digits) (c :: '_' :: text)

namespace Separated

variable {digits text : List Char}

theorem exists_cons (h : Separated digits text) :
    ∃ c digits' text', digits = c :: digits' ∧ text = c :: text' := by
  cases h with
  | last c => exact ⟨c, [], [], rfl, rfl⟩
  | adjacent c h => exact ⟨c, _, _, rfl, rfl⟩
  | apart c h => exact ⟨c, _, _, rfl, rfl⟩

/-- Without the separators the digits are left. -/
theorem filter_eq (h : Separated digits text) (hdigits : '_' ∉ digits) :
    text.filter (· != '_') = digits := by
  induction h with
  | last c =>
      rw [List.mem_singleton] at hdigits
      rw [List.filter_cons_of_pos (by simpa using Ne.symm hdigits), List.filter_nil]
  | adjacent c _ ih =>
      rw [List.mem_cons, not_or] at hdigits
      rw [List.filter_cons_of_pos (by simpa using Ne.symm hdigits.1), ih hdigits.2]
  | apart c _ ih =>
      rw [List.mem_cons, not_or] at hdigits
      rw [List.filter_cons_of_pos (by simpa using Ne.symm hdigits.1),
        List.filter_cons_of_neg (by simp), ih hdigits.2]

end Separated

theorem digitTail_eq_digitRun (p : Char → Bool) {c : Char} (hc : c ≠ '_') (cs : List Char) :
    digitTail p (c :: cs) = digitRun p (c :: cs) := by
  rw [digitRun, digitTail]
  exact fun _ _ h _ => hc h

theorem digitTail_eq_zero {p : Char → Bool} {rest : List Char}
    (h : ∀ c ∈ rest.head?, p c = false ∧ c ≠ '_') : digitTail p rest = 0 := by
  cases rest with
  | nil => rfl
  | cons c rest =>
      obtain ⟨hp, hc⟩ := h c rfl
      rw [digitTail_eq_digitRun p hc, digitRun, hp]
      rfl

/-- **Separated digits are scanned to their end.** -/
theorem digitRun_append {p : Char → Bool} (hseparator : p '_' = false)
    {digits text rest : List Char} (h : Separated digits text) (hdigits : ∀ c ∈ digits, p c = true)
    (hrest : ∀ c ∈ rest.head?, p c = false ∧ c ≠ '_') :
    digitRun p (text ++ rest) = text.length := by
  have hne : ∀ {c : Char}, p c = true → c ≠ '_' := by
    rintro c hc rfl
    rw [hseparator] at hc
    cases hc
  induction h with
  | last c =>
      rw [List.singleton_append, digitRun, if_pos (hdigits c (List.mem_singleton_self c)),
        digitTail_eq_zero hrest]
      rfl
  | adjacent c h ih =>
      rw [List.forall_mem_cons] at hdigits
      have hrun := ih hdigits.2
      obtain ⟨d, digits', text', rfl, rfl⟩ := h.exists_cons
      rw [List.cons_append, digitRun, if_pos hdigits.1, List.cons_append,
        digitTail_eq_digitRun p (hne (hdigits.2 d List.mem_cons_self)), ← List.cons_append, hrun]
      rfl
  | apart c h ih =>
      rw [List.forall_mem_cons] at hdigits
      have hrun := ih hdigits.2
      obtain ⟨d, digits', text', rfl, rfl⟩ := h.exists_cons
      have hd := hdigits.2 d List.mem_cons_self
      rw [List.cons_append, digitRun, if_pos hd] at hrun
      rw [List.cons_append, digitRun, if_pos hdigits.1, List.cons_append, List.cons_append,
        digitTail, if_pos hd, List.length_cons, List.length_cons, ← hrun]

/-! ### Integer literals -/

/-- An integer as a script writes it: what it opens with, its digits with separators between them,
and whether the suffix of a big integer follows. -/
structure IntegerLiteral extends Numeral where
  opening : List Char
  opening_mem : opening ∈ base.openings
  written : List Char
  separated : Separated digits written
  big : Bool

namespace IntegerLiteral

/-- The suffix of a big integer, or nothing. -/
def suffix (l : IntegerLiteral) : List Char := if l.big then ['n'] else []

/-- The text of the literal. -/
def text (l : IntegerLiteral) : String := String.ofList (l.opening ++ (l.written ++ l.suffix))

/-- The literal is decimal, or it has no suffix and stands for a number of at most 63 bits. -/
def HasValue (l : IntegerLiteral) : Prop := l.base = .decimal ∨ l.big = false ∧ l.value < 2 ^ 63

variable (l : IntegerLiteral)

theorem separator_not_mem : '_' ∉ l.digits := by
  intro hmem
  have hlt := (l.digitValue_lt '_' hmem).trans_le l.base.size_le
  exact absurd hlt (by decide)

theorem suffix_cases : l.suffix = [] ∨ l.suffix = ['n'] := by
  unfold suffix
  cases l.big
  · exact .inl rfl
  · exact .inr rfl

theorem filter_text :
    l.text.toList.filter (· != '_') = l.opening ++ (l.digits ++ l.suffix) := by
  have hopening : l.opening.filter (· != '_') = l.opening := by
    have hmem := l.opening_mem
    cases hbase : l.base with
    | decimal =>
        rw [hbase] at hmem
        rw [List.mem_singleton.1 hmem]
        rfl
    | hexadecimal | octal | binary =>
        rw [hbase] at hmem
        rcases List.mem_pair.1 hmem with hopening | hopening <;> rw [hopening] <;> rfl
  have hsuffix : l.suffix.filter (· != '_') = l.suffix := by
    rcases l.suffix_cases with h | h <;> rw [h] <;> rfl
  rw [text, String.toList_ofList, List.filter_append, List.filter_append, hopening, hsuffix,
    l.separated.filter_eq l.separator_not_mem]

/-- A literal has a value if it is decimal, or has no suffix and is not too big. -/
theorem isSome_value?_text_iff : (value? l.text).isSome ↔ l.HasValue := by
  have htext := l.filter_text
  by_cases hbase : l.base = .decimal
  · have hopening := l.opening_mem
    rw [hbase] at hopening
    rw [List.mem_singleton.1 hopening, List.nil_append] at htext
    rw [value?, Numeral.valueOf?_decimal hbase l.big htext]
    exact iff_of_true rfl (.inl hbase)
  · rw [value?, Numeral.valueOf?_marked hbase l.opening_mem l.big htext, HasValue]
    simp [hbase]

end IntegerLiteral

/-! ### Integer literals as numbers of the grammar -/

/-- The digits of a base, as the reader of scripts knows them. -/
def Base.isDigit : Base → Char → Bool
  | .decimal => Char.isDigit
  | .hexadecimal => isHexDigit
  | .octal => isOctalDigit
  | .binary => isBinaryDigit

theorem toNat_lt_of_digitValue_lt {c : Char} (h : digitValue c < 16) : c.toNat < 128 := by
  have hlower := toLower_mem_digitChars h
  have hsmall : digitChars.all (fun d => d.toNat < 128) = true := by decide
  unfold Char.toLower at hlower
  split at hlower
  · next hupper =>
    have hle : c.val.toNat ≤ 'Z'.val.toNat := UInt32.le_iff_toNat_le.1 hupper.2
    exact hle.trans_lt (by decide)
  · simpa using List.all_eq_true.1 hsmall c hlower

theorem Base.isDigit_of_digitValue_lt {b : Base} {c : Char} (h : digitValue c < b.size) :
    b.isDigit c = true := by
  have hall : (List.range 128).all (fun k => digitValue (Char.ofNat k) < b.size →
      b.isDigit (Char.ofNat k) = true) = true := by
    cases b <;> decide
  have hlt := toNat_lt_of_digitValue_lt (h.trans_le b.size_le)
  have hc := decide_eq_true_iff.1 (List.all_eq_true.1 hall c.toNat (List.mem_range.2 hlt))
  rw [Char.ofNat_toNat] at hc
  exact hc h

namespace IntegerLiteral

variable (l : IntegerLiteral)

theorem digitRun_written : digitRun l.base.isDigit (l.written ++ l.suffix) = l.written.length := by
  refine digitRun_append (by cases l.base <;> decide) l.separated
    (fun c hc => Base.isDigit_of_digitValue_lt (l.digitValue_lt c hc)) fun c hc => ?_
  rcases l.suffix_cases with h | h
  · rw [h] at hc
    cases hc
  · rw [h] at hc
    obtain rfl := Option.some.inj hc
    cases l.base <;> decide

theorem exists_length_written : ∃ w, l.written.length = w + 1 := by
  obtain ⟨c, digits, written, -, hwritten⟩ := l.separated.exists_cons
  exact ⟨written.length, by rw [hwritten]; rfl⟩

theorem radixWidth_written : radixWidth l.base.isDigit (l.written ++ l.suffix) =
    (l.written ++ l.suffix).length := by
  obtain ⟨w, hw⟩ := l.exists_length_written
  have hnext : (l.written ++ l.suffix)[w + 1]? = l.suffix[0]? := by
    rw [← hw, List.getElem?_append_right le_rfl, Nat.sub_self]
  rw [radixWidth, l.digitRun_written, hw]
  simp only [hnext, List.length_append, hw]
  rcases l.suffix_cases with h | h <;> rw [h] <;> rfl

/-- A decimal is a zero, or it opens with another digit. -/
theorem written_cases (hbase : l.base = .decimal) :
    l.written = ['0'] ∨ ∃ c rest, l.written = c :: rest ∧ c ≠ '0' ∧ c.isDigit = true := by
  obtain ⟨c, digits, rest, hdigits, hwritten⟩ := l.separated.exists_cons
  by_cases hzero : c = '0'
  · left
    have hsingle := l.no_leading_zero hbase (by rw [hdigits, hzero]; rfl)
    have hseparated := l.separated
    generalize l.written = written at hseparated
    rw [hsingle] at hseparated
    cases hseparated with
    | last c => rfl
    | adjacent c h => cases h
    | apart c h => cases h
  · have hlt := l.digitValue_lt c (by rw [hdigits]; exact List.mem_cons_self)
    rw [hbase] at hlt
    exact .inr ⟨c, rest, hwritten, hzero, Base.isDigit_of_digitValue_lt hlt⟩

theorem takesFraction_written (hbase : l.base = .decimal) : takesFraction l.written = true := by
  rcases l.written_cases hbase with hzero | ⟨c, rest, hwritten, hne, -⟩
  · rw [hzero]
    rfl
  · rw [hwritten, takesFraction]
    rintro _ heq
    exact hne (List.cons.inj heq).1

theorem decimalWidth_written (hbase : l.base = .decimal) :
    decimalWidth (l.written ++ l.suffix) = (l.written ++ l.suffix).length := by
  have hrun := l.digitRun_written
  rw [hbase] at hrun
  have hrun : digitRun Char.isDigit (l.written ++ l.suffix) = l.written.length := hrun
  rw [decimalWidth]
  simp only [hrun, List.take_left', List.drop_left', l.takesFraction_written hbase, if_true]
  rw [List.length_append]
  rcases l.suffix_cases with h | h <;> rw [h] <;> rfl

theorem scanNumber_cons {c : Char} (hzero : c ≠ '0') (hdigit : c.isDigit = true) (cs : List Char) :
    scanNumber (c :: cs) = decimalWidth (c :: cs) := by
  unfold scanNumber
  split
  · next heq =>
    obtain rfl := (List.cons.inj heq).1
    exact absurd hdigit (by decide)
  · next heq => exact absurd (List.cons.inj heq).1 hzero
  · next heq =>
    obtain ⟨rfl, rfl⟩ := List.cons.inj heq
    rw [if_pos hdigit]
  · next heq => cases heq

/-- **Every integer literal is a number of the grammar.** -/
theorem scanNumber_text : scanNumber l.text.toList = l.text.toList.length := by
  rw [text, String.toList_ofList]
  have hmem := l.opening_mem
  cases hbase : l.base with
  | decimal =>
      rw [hbase] at hmem
      rw [List.mem_singleton.1 hmem, List.nil_append]
      have hwidth := l.decimalWidth_written hbase
      rcases l.written_cases hbase with hzero | ⟨c, rest, hwritten, hne, hdigit⟩
      · rw [hzero]
        rcases l.suffix_cases with h | h <;> rw [h] <;> rfl
      · rw [hwritten, List.cons_append] at hwidth ⊢
        rw [scanNumber_cons hne hdigit, hwidth]
  | hexadecimal | octal | binary =>
      have hwidth := l.radixWidth_written
      have hpos : 0 < (l.written ++ l.suffix).length := by
        obtain ⟨w, hw⟩ := l.exists_length_written
        rw [List.length_append]
        omega
      rw [hbase] at hmem hwidth
      rw [← hwidth] at hpos
      rw [List.length_append, ← hwidth]
      rcases List.mem_pair.1 hmem with hopening | hopening <;> rw [hopening] <;>
        exact (if_pos hpos).trans (Nat.add_comm _ _)

end IntegerLiteral

/-! ### Integer literals under rules -/

/-- A rule that asks for the value of a literal annotates it if the literal has one. -/
theorem isSome_highlight?_iff {r : ValueRule} {c : Cursor} {literal : Node}
    (hasks : r.Asks c.surroundings c.node literal) :
    (r.highlight? c).isSome ↔ (value? literal.text).isSome := by
  have hnumber : literal.numberValue? = value? literal.text := if_pos hasks.2.2.1
  simp only [r.highlight?_eq_note?, Option.isSome_iff_exists, ValueRule.note?_eq_some_iff,
    Node.understood, ← hnumber, Option.map_eq_some_iff]
  constructor
  · rintro ⟨-, literal', -, hasks', ⟨number, hvalue, -⟩, -⟩
    obtain rfl : literal = literal' := Option.some.inj (hasks.1.symm.trans hasks'.1)
    exact ⟨number, hvalue⟩
  · rintro ⟨number, hvalue⟩
    exact ⟨_, literal, _, hasks, ⟨number, hvalue, rfl⟩, rfl⟩

/-- **Every integer literal is a number of the grammar, and it has a value exactly if it is decimal
or has no suffix and at most 63 bits**; exactly then it is annotated by the rules that ask for
it. -/
theorem integerLiteral_value_iff (l : IntegerLiteral) :
    scanNumber l.text.toList = l.text.toList.length ∧
      ((value? l.text).isSome ↔ l.HasValue) ∧
      ∀ (r : ValueRule) (c : Cursor) (literal : Node), r.Asks c.surroundings c.node literal →
        literal.text = l.text → ((r.highlight? c).isSome ↔ l.HasValue) := by
  refine ⟨l.scanNumber_text, l.isSome_value?_text_iff, fun r c literal hasks htext => ?_⟩
  rw [isSome_highlight?_iff hasks, htext, l.isSome_value?_text_iff]

/-- The number five as a big integer, in hexadecimal. -/
def bigHexadecimal : IntegerLiteral where
  base := .hexadecimal
  digits := ['5']
  digits_ne_nil := by decide
  digitValue_lt := digitValue_lt_of_all (by decide)
  no_leading_zero := by decide
  opening := ['0', 'x']
  opening_mem := by decide
  written := ['5']
  separated := .last '5'
  big := true

/-- The number five as a big integer, in decimal. -/
def bigDecimal : IntegerLiteral where
  base := .decimal
  digits := ['5']
  digits_ne_nil := by decide
  digitValue_lt := digitValue_lt_of_all (by decide)
  no_leading_zero := by decide
  opening := []
  opening_mem := by decide
  written := ['5']
  separated := .last '5'
  big := true

/-- Of two big integers in a script, the one in hexadecimal has no value and is left out. -/
theorem integerLiteral_value_iff_bigHexadecimal :
    bigDecimal.text = "5n" ∧ (value? "5n").isSome ∧
      bigHexadecimal.text = "0x5n" ∧ ¬ (value? "0x5n").isSome ∧
      ∃ t, Tree.parse? "var x = \x7b itemType: 0x5n \x7d;" = some t ∧ ∃ c ∈ t.walk, ∃ literal,
        (ValueRule.mk "itemType" [("GRID", 5)] none).Asks c.surroundings c.node literal ∧
        literal.text = bigHexadecimal.text ∧
        ¬ ((ValueRule.mk "itemType" [("GRID", 5)] none).highlight? c).isSome := by
  have hmember : (Tree.parse? "var x = \x7b itemType: 0x5n \x7d;").any (fun t =>
      t.walk.any fun c => (c.node.child? .value).any fun literal =>
        decide (c.node.key? = some "itemType" ∧ literal.kind = .number ∧ literal.text = "0x5n")) =
          true := by decide +kernel
  have hvalueless : ¬ bigHexadecimal.HasValue := by simp [IntegerLiteral.HasValue, bigHexadecimal]
  obtain ⟨-, hdecimal, -⟩ := integerLiteral_value_iff bigDecimal
  obtain ⟨-, hhexadecimal, hrules⟩ := integerLiteral_value_iff bigHexadecimal
  obtain ⟨t, hparse, hwalk⟩ := (Option.any_eq_true _ _).1 hmember
  obtain ⟨c, hc, hchild⟩ := List.any_eq_true.1 hwalk
  obtain ⟨literal, hliteral, h⟩ := (Option.any_eq_true _ _).1 hchild
  obtain ⟨hkey, hkind, htext⟩ := of_decide_eq_true h
  have hasks : (ValueRule.mk "itemType" [("GRID", 5)] none).Asks c.surroundings c.node literal :=
    ⟨hliteral, hkey, hkind, rfl⟩
  exact ⟨rfl, hdecimal.2 (.inl rfl), rfl, mt hhexadecimal.1 hvalueless, t, hparse, c, hc, literal,
    hasks, htext, mt (hrules _ c literal hasks htext).1 hvalueless⟩

end SchemaScope.Literal
