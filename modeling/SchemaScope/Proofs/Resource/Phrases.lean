/-
**Strings on lines.**

A locale file can hold one string on each line, written as an element whose value has references
for the characters that markup gives a meaning.  Whatever a value says, be it a quote or the text of
another element, the last quote of the line is the one behind the value, and no entry starts in a
value.  So the strings are read back: an empty value does not count, and of several values of one
key the first counts.

Main definitions:

* `Locale.Phrase`, `Locale.Phrase.line` — a string to be written, and its line;
* `Locale.written` — the file that holds one string on each line.

Main results:

* `Locale.clear_phrases` — such a file is a clear document;
* `Locale.strings_written` — **strings that are written one on each line are read back**.
-/

import SchemaScope.Proofs.Resource.Documents

set_option autoImplicit false

namespace SchemaScope.Locale

/-- A string to be written: its key, and its value on one line. -/
structure Phrase where
  key : String
  value : String
  isKey : IsKey key.toList
  oneLine : '\n' ∉ value.toList

/-- What opens the line of a string, up to its key. -/
def lineFront : List Char := "  <Item Name=\"LocalizableStrings.".toList

/-- What closes the line of a string, behind its value. -/
def lineBack : List Char := "\" />\n".toList

/-- The line that a string is written on, with its end: two blanks, and an element such as
`<Item Name="LocalizableStrings.Caption.Value" Value="Save &amp; close" />`. -/
def Phrase.line (p : Phrase) : List Char :=
  lineFront ++ p.key.toList ++ middle ++ Markup.encode p.value.toList ++ lineBack

/-- The file that holds one string on each line. -/
def written (phrases : List Phrase) : String := String.ofList (phrases.flatMap Phrase.line)

/-- The item that a string is written as. -/
def Phrase.item (p : Phrase) : Item :=
  ⟨nameOf p.key.toList, Markup.encode p.value.toList, quote_notMem_nameOf p.isKey,
    Markup.quote_notMem_encode _⟩

theorem Phrase.key?_item (p : Phrase) : p.item.key? = some p.key.toList :=
  Item.key?_eq_some_iff.2 ⟨p.isKey, rfl⟩

theorem Phrase.line_eq (p : Phrase) :
    p.line = ownLine.before ++ tag ++ (opening ++ p.key.toList ++ middle ++
      (Markup.encode p.value.toList ++ '"' :: ownLine.behind)) := by
  have hfront : lineFront = ownLine.before ++ tag ++ opening := by decide +kernel
  have hback : lineBack = '"' :: ownLine.behind := by decide +kernel
  rw [line, hfront, hback]
  simp only [List.append_assoc]

theorem Phrase.text_cons (p : Phrase) (doc : List (Item × Layout)) :
    text ((p.item, ownLine) :: doc) = p.line ++ text doc := by
  rw [Locale.text_cons, core, p.line_eq, entry_pieces, List.append_assoc]
  rfl

theorem ofList_text_phrases (phrases : List Phrase) :
    String.ofList (text (phrases.map fun p => (p.item, ownLine))) = written phrases := by
  rw [written]
  congr 1
  induction phrases with
  | nil => rfl
  | cons p phrases ih => rw [List.map_cons, p.text_cons, ih, List.flatMap_cons]

theorem clear_phrases (phrases : List Phrase) :
    Clear (phrases.map fun p => (p.item, ownLine)) := by
  induction phrases with
  | nil => trivial
  | cons p phrases ih =>
      refine ⟨fun _ => ⟨Markup.newline_notMem_encode p.oneLine, ?_⟩, ih⟩
      have hbehind : ownLine.behind = [' ', '/', '>'] ++ ['\n'] := by decide +kernel
      rw [hbehind, List.append_assoc, List.takeWhile_append_of_pos (by simp)]
      simp

/-- **Strings that are written one on each line are read back**: each key has its first value that
is not empty. -/
theorem strings_written (phrases : List Phrase) (key : String) :
    (strings (written phrases)).get? key =
      (phrases.find? fun p => p.key = key ∧ p.value ≠ "").map Phrase.value := by
  rw [← ofList_text_phrases, get?_strings_of_clear (clear_phrases phrases)]
  induction phrases with
  | nil => rfl
  | cons p phrases ih =>
      simp only [List.map_cons] at ih ⊢
      rw [valueOf?_cons, ih, p.key?_item, List.find?_cons, Option.bind_some]
      by_cases h : p.key = key ∧ p.value ≠ ""
      · simp [given?, Phrase.item, h]
      · have hgiven : given? key p.key.toList p.item.value = none := by
          refine if_neg ?_
          rintro ⟨hkey, hvalue⟩
          refine h ⟨String.toList_inj.1 hkey, ?_⟩
          rintro hempty
          exact hvalue (by simp [Phrase.item, hempty])
        simp [hgiven, h]

/-- A string whose value quotes the element of another string, with an ampersand. -/
def quotingPhrase : Phrase where
  key := "A"
  value := "\"x\" & <Item Name=\"LocalizableStrings.B.Value\" Value=\"y\" />"
  isKey := by decide +kernel
  oneLine := by decide +kernel

/-- An empty value of the same key. -/
def emptyPhrase : Phrase := ⟨"A", "", quotingPhrase.isKey, by decide⟩

/-- An empty value does not count, a value with markup in it is read back as it is, and what it quotes
is no string of the file. -/
theorem strings_written_quotingPhrase :
    (strings (written [emptyPhrase, quotingPhrase])).get? "A" = some quotingPhrase.value ∧
      (strings (written [emptyPhrase, quotingPhrase])).get? "B" = none :=
  ⟨(strings_written [emptyPhrase, quotingPhrase] "A").trans (by decide +kernel),
    (strings_written [emptyPhrase, quotingPhrase] "B").trans (by decide +kernel)⟩

end SchemaScope.Locale
