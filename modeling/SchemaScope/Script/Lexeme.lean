/-
**Lexemes of a script.**

The readers of this module take the characters from some place on and answer how many of them make
up one lexical unit: a word, a number, a string, a mark of punctuation, a regular expression, a
comment.  They look at nothing before that place, so whether a slash divides or opens a regular
expression is for the grammar to say.

Main definitions:

* `isBlank`, `isLineBreak`, `isWordStart`, `isWordPart` — character classes;
* `scanWord`, `scanNumber`, `scanString`, `scanRegex`, `scanComment` — widths of lexical units;
* `Lexeme`, `Lexeme.read` — the lexeme at a place;
* `Trivia.skip` — blanks and comments passed over before a lexeme.
-/

import SchemaScope.Script.Node

set_option autoImplicit false

namespace SchemaScope.Script

/-! ### Character classes -/

/-- The characters that separate lexemes: ASCII blanks, the space separators, the line and
paragraph separators, the byte order mark and the zero-width space and joiner. -/
def isBlank (c : Char) : Bool :=
  let n := c.toNat
  (9 ≤ n && n ≤ 13) || n == 0x20 || n == 0xA0 || n == 0x1680 || (0x2000 ≤ n && n ≤ 0x200B) ||
    n == 0x2028 || n == 0x2029 || n == 0x202F || n == 0x205F || n == 0x2060 || n == 0x3000 ||
    n == 0xFEFF

/-- The characters after which a missing semicolon may be supplied. -/
def isLineBreak (c : Char) : Bool := c == '\n' || c == '\u2028' || c == '\u2029'

/-- The characters at which a line comment stops. -/
def endsLineComment (c : Char) : Bool := isLineBreak c || c == '\r'

/-- The ASCII marks that never belong to a word. -/
def wordBreakers : List Char := ":;`\"'@#.,|^&<=>+-*/\\%?!~()[]\x7b\x7d".toList

/-- The characters that can stand inside a word. -/
def isWordPart (c : Char) : Bool :=
  0x20 < c.toNat && !isBlank c && !wordBreakers.contains c

/-- The characters that can open a word. -/
def isWordStart (c : Char) : Bool := isWordPart c && !c.isDigit

/-- Hexadecimal digits. -/
def isHexDigit (c : Char) : Bool :=
  c.isDigit || ('a' ≤ c && c ≤ 'f') || ('A' ≤ c && c ≤ 'F')

/-- Octal digits. -/
def isOctalDigit (c : Char) : Bool := '0' ≤ c && c ≤ '7'

/-- Binary digits. -/
def isBinaryDigit (c : Char) : Bool := c == '0' || c == '1'

/-! ### Words -/

/-- The number of characters at the front that satisfy `p`. -/
def runLength (p : Char → Bool) : List Char → Nat
  | [] => 0
  | c :: cs => if p c then runLength p cs + 1 else 0

/-- The width of a `\u` escape after its backslash, or zero: four hexadecimal digits, or any
positive number of them in braces. -/
def unicodeEscapeWidth : List Char → Nat
  | 'u' :: '\x7b' :: cs =>
      let digits := runLength isHexDigit cs
      if 0 < digits && cs[digits]? == some '\x7d' then digits + 3 else 0
  | 'u' :: cs => if 4 ≤ runLength isHexDigit cs then 5 else 0
  | _ => 0

/-- The width of the rest of a word whose first part has been read; `skip` characters still belong
to an escape. -/
def wordTail : Nat → List Char → Nat
  | _, [] => 0
  | skip + 1, _ :: cs => wordTail skip cs + 1
  | 0, '\\' :: cs =>
      match unicodeEscapeWidth cs with
      | 0 => 0
      | w + 1 => wordTail (w + 1) cs + 1
  | 0, c :: cs => if isWordPart c then wordTail 0 cs + 1 else 0

/-- The width of a word, or zero. -/
def scanWord : List Char → Nat
  | [] => 0
  | '\\' :: cs => wordTail 0 ('\\' :: cs)
  | c :: cs => if isWordStart c then wordTail 0 cs + 1 else 0

/-! ### Numbers -/

/-- The width of digits with single underscores between them, after a digit has been read. -/
def digitTail (p : Char → Bool) : List Char → Nat
  | '_' :: c :: cs => if p c then digitTail p cs + 2 else 0
  | c :: cs => if p c then digitTail p cs + 1 else 0
  | [] => 0

/-- The width of a digit followed by digits with single underscores between them, or zero. -/
def digitRun (p : Char → Bool) : List Char → Nat
  | c :: cs => if p c then digitTail p cs + 1 else 0
  | [] => 0

/-- The width of an exponent, or zero. -/
def exponentWidth : List Char → Nat
  | e :: cs =>
      if e == 'e' || e == 'E' then
        let sign := match cs with
          | '+' :: _ | '-' :: _ => 1
          | _ => 0
        match digitRun Char.isDigit (cs.drop sign) with
        | 0 => 0
        | w + 1 => w + 2 + sign
      else 0
  | [] => 0

/-- Whether digits may be followed by a fraction or an exponent: a lone zero, or digits that do not
open with two zeros. -/
def takesFraction : List Char → Bool
  | '0' :: cs => match cs with
      | [] => true
      | c :: _ => '1' ≤ c && c ≤ '9'
  | _ => true

/-- The width of a number that opens with a decimal digit, a radix mark set aside. -/
def decimalWidth (cs : List Char) : Nat :=
  let whole := digitRun Char.isDigit cs
  let rest := cs.drop whole
  if takesFraction (cs.take whole) then
    match rest with
    | 'n' :: _ => whole + 1
    | '.' :: after =>
        let fraction := digitRun Char.isDigit after
        whole + 1 + fraction + exponentWidth (after.drop fraction)
    | _ => whole + exponentWidth rest
  else
    match rest with
    | 'n' :: _ => whole + 1
    | _ => whole

/-- The width of digits after a radix mark, with the suffix of a big integer, or zero. -/
def radixWidth (p : Char → Bool) (cs : List Char) : Nat :=
  match digitRun p cs with
  | 0 => 0
  | w + 1 => if cs[w + 1]? == some 'n' then w + 2 else w + 1

/-- The width of a number, or zero. -/
def scanNumber (cs : List Char) : Nat :=
  match cs with
  | '.' :: after =>
      match digitRun Char.isDigit after with
      | 0 => 0
      | w + 1 => w + 2 + exponentWidth (after.drop (w + 1))
  | '0' :: r :: after =>
      let marked :=
        if r == 'x' || r == 'X' then radixWidth isHexDigit after
        else if r == 'o' || r == 'O' then radixWidth isOctalDigit after
        else if r == 'b' || r == 'B' then radixWidth isBinaryDigit after
        else 0
      if 0 < marked then marked + 2 else decimalWidth cs
  | c :: _ => if c.isDigit then decimalWidth cs else 0
  | [] => 0

/-! ### Strings, templates and regular expressions -/

/-- The width of an escape after its backslash, or zero if it is malformed: up to three octal
digits, `x` with two hexadecimal digits, a Unicode escape, a line continuation, or any other
character. -/
def escapeWidth : List Char → Nat
  | [] => 0
  | '\r' :: '\n' :: _ => 2
  | 'x' :: cs => if 2 ≤ runLength isHexDigit cs then 3 else 0
  | 'u' :: cs => unicodeEscapeWidth ('u' :: cs)
  | c :: cs => if isOctalDigit c then min 3 (runLength isOctalDigit cs + 1) else 1

/-- The width of a string after its opening quote, the closing quote included; `none` if it does
not close on its line.  `skip` characters still belong to an escape. -/
def stringTail (quote : Char) : Nat → List Char → Option Nat
  | _, [] => none
  | skip + 1, _ :: cs => (stringTail quote skip cs).map (· + 1)
  | 0, c :: cs =>
      if c == quote then some 1
      else if c == '\n' || c == '\r' then none
      else if c == '\\' then
        match escapeWidth cs with
        | 0 => none
        | w + 1 => (stringTail quote (w + 1) cs).map (· + 1)
      else (stringTail quote 0 cs).map (· + 1)

/-- The width of the characters of a template up to its end or its next substitution; `none` if
neither follows. -/
def templateChunk : Nat → List Char → Option Nat
  | _, [] => none
  | skip + 1, _ :: cs => (templateChunk skip cs).map (· + 1)
  | 0, '\x60' :: _ => some 0
  | 0, '$' :: '\x7b' :: _ => some 0
  | 0, '\\' :: cs =>
      match escapeWidth cs with
      | 0 => none
      | w + 1 => (templateChunk (w + 1) cs).map (· + 1)
  | 0, _ :: cs => (templateChunk 0 cs).map (· + 1)

/-- The width of the body of a regular expression up to its closing slash; `none` if the line ends
first.  Inside a class, a slash is an ordinary character. -/
def regexBody : Bool → List Char → Option Nat
  | _, [] => none
  | _, '\n' :: _ => none
  | inClass, '\\' :: c :: cs => if c == '\n' then none else (regexBody inClass cs).map (· + 2)
  | true, ']' :: cs => (regexBody false cs).map (· + 1)
  | false, '[' :: cs => (regexBody true cs).map (· + 1)
  | false, '/' :: _ => some 0
  | inClass, _ :: cs => (regexBody inClass cs).map (· + 1)

/-- The width of a regular expression with its slashes and flags. -/
def scanRegex : List Char → Option Nat
  | '/' :: cs =>
      match regexBody false cs with
      | none | some 0 => none
      | some (w + 1) => some (w + 3 + runLength Char.isLower (cs.drop (w + 2)))
  | _ => none

/-! ### Comments -/

/-- The width of a block comment after its opening mark; `none` if it does not close. -/
def blockTail : List Char → Option Nat
  | [] => none
  | '*' :: '/' :: _ => some 2
  | _ :: cs => (blockTail cs).map (· + 1)

/-- The width of a comment, or `none` if no comment stands here. -/
def scanComment : List Char → Option Nat
  | '/' :: '/' :: cs => some (runLength (!endsLineComment ·) cs + 2)
  | '/' :: '*' :: cs => (blockTail cs).map (· + 2)
  | _ => none

/-! ### Lexemes -/

/-- What sort of unit a lexeme is.  A template and a regular expression show only their opening
mark, since the grammar reads the rest of them. -/
inductive Form where
  | word | privateName | number | string | symbol | finish | unknown
  deriving DecidableEq, Repr, Inhabited

/-- A lexical unit and its width in characters. -/
structure Lexeme where
  form : Form
  text : String
  width : Nat
  deriving Repr, Inhabited

namespace Lexeme

/-- The marks of punctuation of more than one character, longer ones first. -/
def compound : List (List Char) :=
  [">>>=", "...", "===", "!==", "**=", "<<=", ">>=", ">>>", "&&=", "||=", "??=", "=>", "==", "!=",
    "<=", ">=", "&&", "||", "??", "?.", "++", "--", "+=", "-=", "*=", "/=", "%=", "&=", "|=", "^=",
    "<<", ">>", "**"].map String.toList

/-- The marks of punctuation of one character. -/
def simple : List Char := "\x7b\x7d()[];,<>+-*/%&|^!~?:=.@`".toList

/-- The width of a mark of punctuation, or zero.  A question mark before a decimal fraction stands
alone. -/
def scanSymbol (cs : List Char) : Nat :=
  match compound.find? (·.isPrefixOf cs) with
  | some mark =>
      if mark == ['?', '.'] && (cs.drop 2).head?.any Char.isDigit then 1 else mark.length
  | none => if cs.head?.any simple.contains then 1 else 0

/-- A lexeme of the first `width` characters. -/
def ofWidth (form : Form) (cs : List Char) (width : Nat) : Lexeme :=
  ⟨form, String.ofList (cs.take width), width⟩

/-- The lexeme at the front, which is no blank and no comment. -/
def read (cs : List Char) : Lexeme :=
  match cs with
  | [] => ⟨.finish, "", 0⟩
  | '"' :: after =>
      match stringTail '"' 0 after with
      | some w => ofWidth .string cs (w + 1)
      | none => ⟨.unknown, "\"", 1⟩
  | '\'' :: after =>
      match stringTail '\'' 0 after with
      | some w => ofWidth .string cs (w + 1)
      | none => ⟨.unknown, "'", 1⟩
  | '#' :: after =>
      match scanWord after with
      | 0 => ⟨.unknown, "#", 1⟩
      | w + 1 => ofWidth .privateName cs (w + 2)
  | c :: _ =>
      -- numbers before symbols, because a point may open one
      match scanNumber cs with
      | w + 1 => ofWidth .number cs (w + 1)
      | 0 =>
          match scanWord cs with
          | w + 1 => ofWidth .word cs (w + 1)
          | 0 =>
              match scanSymbol cs with
              | w + 1 => ofWidth .symbol cs (w + 1)
              | 0 => ⟨.unknown, String.singleton c, 1⟩

/-- Whether the lexeme is the given mark of punctuation. -/
def isSymbol (l : Lexeme) (mark : String) : Bool := l.form == .symbol && l.text == mark

/-- Whether the lexeme is the given word. -/
def isWord (l : Lexeme) (word : String) : Bool := l.form == .word && l.text == word

end Lexeme

/-! ### Blanks and comments between lexemes -/

/-- What lies between two lexemes: the comments, newest first, whether a line ends there, the mark
reached and the characters from there on. -/
structure Trivia where
  comments : List Node
  lineBreak : Bool
  mark : Mark
  rest : List Char

namespace Trivia

/-- The comment of the given width at a place. -/
def commentAt (m : Mark) (cs : List Char) (width : Nat) : Node :=
  let text := cs.take width
  ⟨.comment, none, m.upTo (m.advanceText text), String.ofList text, []⟩

/-- Passes over blanks and comments.  `inside` characters still belong to a comment that has been
recorded. -/
def skip (comments : List Node) (lineBreak : Bool) (m : Mark) : Nat → List Char → Trivia
  | _, [] => ⟨comments, lineBreak, m, []⟩
  | inside + 1, c :: cs => skip comments (lineBreak || isLineBreak c) (m.advance c) inside cs
  | 0, c :: cs =>
      if isBlank c then skip comments (lineBreak || isLineBreak c) (m.advance c) 0 cs
      else
        match scanComment (c :: cs) with
        | some (w + 1) =>
            skip (commentAt m (c :: cs) (w + 1) :: comments) lineBreak (m.advance c) w cs
        | _ => ⟨comments, lineBreak, m, c :: cs⟩

end Trivia

end SchemaScope.Script
