/-
**Resource keys on a line.**

A script mentions the key of a localizable string behind the name of a table of strings, as in
`Resources.Strings.Key`, or as the value of a `captionName` member.  An editor asks for the key
under the cursor: the last mention that starts before it.

Main definitions:

* `Mention.at?` — the mention that opens a text;
* `Mention.all` — the mentions of a line, each with the byte where it starts;
* `Mention.keyOn?` — the key that a line mentions, before a byte offset or at all.
-/

import SchemaScope.Resource.Locale
import SchemaScope.Text.Blank

set_option autoImplicit false

namespace SchemaScope

open Text

/-- A key that is mentioned, and how many characters the mention takes. -/
structure Mention where
  key : List Char
  width : Nat
  deriving DecidableEq, Repr, Inhabited

namespace Mention

/-- A text without a quote at its front. -/
def dropQuote : List Char → List Char
  | '"' :: rest => rest
  | rest => rest

/-- What follows the name of a table of strings, which may stand behind the name of a module. -/
def afterTable? (text : List Char) : Option (List Char) :=
  let rest := text.dropWhile isWordChar
  (afterText? ".Strings.".toList rest).or (afterText? ".localizableStrings.".toList rest)

/-- What follows the key of a `captionName` member, its colon and the white space behind it. -/
def afterCaptionName? (text : List Char) : Option (List Char) := do
  let afterName ← afterText? "captionName".toList (dropQuote text)
  let afterColon ← afterText? [':'] (dropQuote afterName)
  let rest := afterColon.dropWhile isWhiteSpace
  if rest.length < afterColon.length then some rest else none

/-- A key, in quotes or not, at the front of `rest`, which ends `text`. -/
def keyAt? (text rest : List Char) : Option Mention :=
  let rest := dropQuote rest
  let key := rest.takeWhile isWordChar
  if key.isEmpty then none
  else some ⟨key, text.length - (dropQuote (rest.drop key.length)).length⟩

/-- The mention that opens a text. -/
def at? (text : List Char) : Option Mention :=
  ((afterTable? text).bind (keyAt? text)).or ((afterCaptionName? text).bind (keyAt? text))

/-- The mentions of a text from left to right, each with the byte where it starts.  `skip`
characters belong to a mention already read, and `byte` bytes stand before. -/
def allFrom (byte : Nat) : Nat → List Char → List (Nat × Mention)
  | _, [] => []
  | skip + 1, c :: cs => allFrom (byte + c.utf8Size) skip cs
  | 0, c :: cs =>
      match at? (c :: cs) with
      | some m => (byte, m) :: allFrom (byte + c.utf8Size) (m.width - 1) cs
      | none => allFrom (byte + c.utf8Size) 0 cs

/-- The mentions of a line from left to right, each with the byte where it starts. -/
def all (line : List Char) : List (Nat × Mention) := allFrom 0 0 line

/-- The key that a line mentions: of the last mention that starts before the offset, or of the first
one if no offset is given. -/
def keyOn? (line : String) (offset : Option Nat) : Option String :=
  let mentions := all line.toList
  let found : Option (Nat × Mention) := match offset with
    | none => mentions.head?
    | some offset => (mentions.takeWhile fun m => m.1 < offset).getLast?
  found.map fun m => String.ofList m.2.key

end Mention

end SchemaScope
