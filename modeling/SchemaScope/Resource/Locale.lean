/-
**Locale files.**

A locale file holds localizable strings, one entry for each, as an element with a name and a value.
Only the entries are looked for; whatever else the file holds is passed over.  The value of an entry
runs to the last quote of its line, and is written with character references.  An entry without a
value does not count, and of several entries with one key the first that counts wins.

Main definitions:

* `Locale.entryAt?` — the entry that opens a text;
* `Locale.entries` — the entries of a text in order;
* `Locale.strings` — the localizable strings of a text.
-/

import SchemaScope.Markup.Entity
import SchemaScope.Text.Table
import SchemaScope.Text.WordChar

set_option autoImplicit false

namespace SchemaScope

open Text

/-- What follows a given text at the front of another. -/
def afterText? : List Char → List Char → Option (List Char)
  | [], rest => some rest
  | _ :: _, [] => none
  | c :: cs, d :: rest => if c = d then afterText? cs rest else none

theorem afterText?_append (text rest : List Char) : afterText? text (text ++ rest) = some rest := by
  induction text with
  | nil => rfl
  | cons c cs ih => simp [afterText?, ih]

theorem afterText?_eq_some {text whole rest : List Char} (h : afterText? text whole = some rest) :
    whole = text ++ rest := by
  induction text generalizing whole with
  | nil => simpa [afterText?] using h
  | cons c cs ih =>
      cases whole with
      | nil => simp [afterText?] at h
      | cons d whole =>
          rw [afterText?] at h
          split at h
          · rename_i hcd
            simp [hcd, ih h]
          · cases h

namespace Locale

/-- The strings of one locale by key. -/
abbrev Strings := Table String

/-! ### Entries -/

/-- An entry as it is written: its key, its value before decoding, and how many characters it
takes. -/
structure Entry where
  key : List Char
  raw : List Char
  width : Nat
  deriving DecidableEq, Repr, Inhabited

/-- What opens an entry, up to its key. -/
def opening : List Char := "Name=\"LocalizableStrings.".toList

/-- What stands between the key and the value of an entry. -/
def middle : List Char := ".Value\" Value=\"".toList

/-- The part of a line before its last quote, if it has one. -/
def beforeLastQuote? (line : List Char) : Option (List Char) :=
  match line.reverse.dropWhile (· != '"') with
  | [] => none
  | _ :: before => some before.reverse

/-- The entry that opens a text. -/
def entryAt? (text : List Char) : Option Entry := do
  let afterOpening ← afterText? opening text
  let key := afterOpening.takeWhile isWordChar
  if key.isEmpty then none
  else
    let value ← afterText? middle (afterOpening.drop key.length)
    let raw ← beforeLastQuote? (value.takeWhile (· != '\n'))
    return ⟨key, raw, opening.length + key.length + middle.length + raw.length + 1⟩

/-- The entries of a text from left to right.  `skip` characters belong to an entry already read. -/
def entriesFrom : Nat → List Char → List Entry
  | _, [] => []
  | skip + 1, _ :: cs => entriesFrom skip cs
  | 0, c :: cs =>
      match entryAt? (c :: cs) with
      | some e => e :: entriesFrom (e.width - 1) cs
      | none => entriesFrom 0 cs

/-- The entries of a text from left to right. -/
def entries (text : List Char) : List Entry := entriesFrom 0 text

/-! ### Strings -/

/-- The key and the decoded value of an entry, unless the value is empty. -/
def Entry.string? (e : Entry) : Option (String × String) :=
  match Markup.decodeOrKeep e.raw with
  | [] => none
  | value => some (String.ofList e.key, String.ofList value)

/-- The localizable strings of a text. -/
def strings (text : String) : Strings :=
  Table.ofListFirst ((entries text.toList).filterMap Entry.string?)

end Locale

end SchemaScope
