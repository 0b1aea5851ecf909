/-
**Reading JSON text.**

A text is read from left to right, and the first fault ends the reading.  A fault is reported with
the line and the number of bytes of that line read when it was found.  Values nest at most 127 deep.

Main definitions:

* `Json.Fault`, `Json.Error` — what can be wrong with a text, and where;
* `Json.readText` — the rest of a string after its opening quote;
* `Json.readNumber` — a number;
* `Json.readValue` — a value within a depth;
* `Json.parse` — a whole text.
-/

import SchemaScope.Json.Value
import SchemaScope.Source.Location
import SchemaScope.Text.Utf8

set_option autoImplicit false

namespace SchemaScope.Json

/-! ### Faults -/

/-- What can be wrong with a JSON text. -/
inductive Fault where
  | endInValue | endInList | endInObject | endInString
  | expectedValue | expectedWord | expectedColon | expectedListEnd | expectedObjectEnd
  | keyNotString | trailingComma | trailingCharacters
  | invalidNumber | numberOutOfRange | invalidEscape | controlCharacter
  | loneSurrogate | brokenSurrogate | tooDeep
  deriving DecidableEq, Repr, Inhabited

/-- The wording of a fault. -/
def Fault.message : Fault → String
  | .endInValue => "EOF while parsing a value"
  | .endInList => "EOF while parsing a list"
  | .endInObject => "EOF while parsing an object"
  | .endInString => "EOF while parsing a string"
  | .expectedValue => "expected value"
  | .expectedWord => "expected ident"
  | .expectedColon => "expected `:`"
  | .expectedListEnd => "expected `,` or `]`"
  | .expectedObjectEnd => "expected `,` or `\x7d`"
  | .keyNotString => "key must be a string"
  | .trailingComma => "trailing comma"
  | .trailingCharacters => "trailing characters"
  | .invalidNumber => "invalid number"
  | .numberOutOfRange => "number out of range"
  | .invalidEscape => "invalid escape"
  | .controlCharacter => "control character (\\u0000-\\u001F) found while parsing a string"
  | .loneSurrogate => "lone leading surrogate in hex escape"
  | .brokenSurrogate => "unexpected end of hex escape"
  | .tooDeep => "recursion limit exceeded"

/-- A fault and the place where it was found. -/
structure Error where
  fault : Fault
  position : Position
  deriving DecidableEq, Repr, Inhabited

/-- The wording of an error. -/
def Error.message (e : Error) : String :=
  e.fault.message ++ " at line " ++ toString e.position.line ++ " column " ++
    toString e.position.column

/-! ### Places in the text -/

/-- The characters still to be read and their position. -/
structure Scan where
  rest : List Char
  position : Position
  deriving Repr, Inhabited

/-- The position after one byte of a character. -/
def pastByte (p : Position) (c : Char) : Position :=
  if c = '\n' then ⟨p.line + 1, 0⟩ else ⟨p.line, p.column + 1⟩

/-- The position after `n` bytes, which may end inside a character. -/
def pastBytes (p : Position) : Nat → List Char → Position
  | 0, _ => p
  | _, [] => p
  | n + 1, c :: cs =>
      if n + 1 < c.utf8Size then ⟨p.line, p.column + (n + 1)⟩
      else pastBytes (p.advance c) (n + 1 - c.utf8Size) cs
termination_by _ cs => cs.length

namespace Scan

/-- The scan after the next character. -/
def next (s : Scan) : Scan :=
  match s.rest with
  | [] => s
  | c :: cs => ⟨cs, s.position.advance c⟩

/-- The scan after `n` characters. -/
def skip (s : Scan) (n : Nat) : Scan := ⟨s.rest.drop n, s.position.advanceText (s.rest.take n)⟩

/-- A fault of the character that comes next, or of the end of the text. -/
def faultAhead (s : Scan) (fault : Fault) : Error :=
  match s.rest with
  | [] => ⟨fault, s.position⟩
  | c :: _ => ⟨fault, pastByte s.position c⟩

/-- A fault of what has been read. -/
def faultHere (s : Scan) (fault : Fault) : Error := ⟨fault, s.position⟩

end Scan

/-- Blanks between the parts of a text. -/
def isBlank (c : Char) : Bool := c == ' ' || c == '\n' || c == '\t' || c == '\r'

/-- Passes over blanks. -/
def skipBlanks (s : Scan) : Scan := s.skip (s.rest.takeWhile isBlank).length

/-! ### Strings -/

/-- The value of a hexadecimal digit. -/
def hexValue? (c : Char) : Option Nat :=
  if c.isDigit then some (c.toNat - '0'.toNat)
  else if 'a' ≤ c && c ≤ 'f' then some (c.toNat - 'a'.toNat + 10)
  else if 'A' ≤ c && c ≤ 'F' then some (c.toNat - 'A'.toNat + 10)
  else none

/-- The number that four hexadecimal digits stand for. -/
def hexQuad? (a b c d : Char) : Option Nat := do
  return (((← hexValue? a) * 16 + (← hexValue? b)) * 16 + (← hexValue? c)) * 16 + (← hexValue? d)

/-- The character of a one-letter escape. -/
def simpleEscape? : Char → Option Char
  | '"' => some '"'
  | '\\' => some '\\'
  | '/' => some '/'
  | 'b' => some '\x08'
  | 'f' => some '\x0c'
  | 'n' => some '\n'
  | 'r' => some '\r'
  | 't' => some '\t'
  | _ => none

/-- The fault of digits after `\u` that are too few or no digits. -/
def badQuad (cs : List Char) (p : Position) : Error :=
  if Utf8.size cs < 4 then ⟨.endInString, p.advanceText cs⟩ else ⟨.invalidEscape, pastBytes p 4 cs⟩

/-- The fault of what stands in place of the second half of a surrogate pair. -/
def badPair (cs : List Char) (p : Position) : Error :=
  match cs with
  | [] => ⟨.endInString, p⟩
  | ['\\'] => ⟨.endInString, p.advance '\\'⟩
  | '\\' :: 'u' :: rest => badQuad rest (p.advanceText ['\\', 'u'])
  | '\\' :: c :: _ => ⟨.brokenSurrogate, pastByte (p.advance '\\') c⟩
  | c :: _ => ⟨.brokenSurrogate, pastByte p c⟩

/-- The rest of a string after its opening quote.  `read` are the characters so far, last first. -/
def readText (read : List Char) (p : Position) : List Char → Except Error (String × Scan)
  | [] => .error ⟨.endInString, p⟩
  | '"' :: cs => .ok (String.ofList read.reverse, ⟨cs, p.advance '"'⟩)
  | ['\\'] => .error ⟨.endInString, p.advance '\\'⟩
  | '\\' :: 'u' :: a :: b :: c :: d :: cs =>
      let start := p.advanceText ['\\', 'u']
      let past := start.advanceText [a, b, c, d]
      match hexQuad? a b c d with
      | none => .error (badQuad (a :: b :: c :: d :: cs) start)
      | some n =>
          -- the second half of a pair cannot come first
          if 0xDC00 ≤ n ∧ n ≤ 0xDFFF then .error ⟨.loneSurrogate, past⟩
          else if n < 0xD800 ∨ 0xDBFF < n then readText (Char.ofNat n :: read) past cs
          else
            -- the first half of a pair, which the second has to follow at once
            match cs with
            | '\\' :: 'u' :: e :: f :: g :: h :: rest =>
                match hexQuad? e f g h with
                | none => .error (badPair cs past)
                | some m =>
                    let after := past.advanceText ['\\', 'u', e, f, g, h]
                    if m < 0xDC00 ∨ 0xDFFF < m then .error ⟨.loneSurrogate, after⟩
                    else
                      let code := (n - 0xD800) * 0x400 + (m - 0xDC00) + 0x10000
                      readText (Char.ofNat code :: read) after rest
            | _ => .error (badPair cs past)
  | '\\' :: c :: cs =>
      match simpleEscape? c with
      | some d => readText (d :: read) (p.advanceText ['\\', c]) cs
      | none =>
          if c = 'u' then .error (badQuad cs (p.advanceText ['\\', 'u']))
          else .error ⟨.invalidEscape, pastByte (p.advance '\\') c⟩
  | c :: cs =>
      if c.toNat < 0x20 then .error ⟨.controlCharacter, p.advance c⟩
      else readText (c :: read) (p.advance c) cs

/-! ### Numbers -/

/-- The value of a decimal digit. -/
def digitValue (c : Char) : Nat := c.toNat - '0'.toNat

/-- The greatest number that an unsigned word holds. -/
def maxWord : Nat := twoTo 64 - 1

/-- The digits before the point as a word and a power of ten: digits that would overflow the word
only raise the power. -/
def wholePart : List Char → Nat → Nat × Nat
  | [], n => (n, 0)
  | c :: cs, n =>
      if maxWord < n * 10 + digitValue c then (n, cs.length + 1)
      else wholePart cs (n * 10 + digitValue c)

/-- The digits after the point taken into a word, each lowering the power of ten: digits from the
first that would overflow the word are dropped. -/
def fractionPart : List Char → Nat → Int → Nat × Int
  | [], n, power => (n, power)
  | c :: cs, n, power =>
      if maxWord < n * 10 + digitValue c then (n, power)
      else fractionPart cs (n * 10 + digitValue c) (power - 1)

/-- The powers of ten that are doubles. -/
def powerOfTen (n : Nat) : Binary64 := Binary64.ofDecimal false 1 n

/-- A word times a power of ten, computed by one multiplication or division of doubles, and one more
division for every 308 powers below that.  `none` if it is too large. -/
def combine? : Nat → Binary64 → Int → Option Binary64
  | 0, x, _ => some x
  | bound + 1, x, power =>
      if power.natAbs ≤ 308 then
        if 0 ≤ power then
          let y := x.mul (powerOfTen power.natAbs)
          if y.isInfinite then none else some y
        else some (x.div (powerOfTen power.natAbs))
      else if x.isZero then some x
      else if 0 ≤ power then none
      else combine? bound (x.div (powerOfTen 308)) (power + 308)

/-- A number that is no integer, read up to `s`. -/
def doubleFrom (negative : Bool) (n : Nat) (power : Int) (s : Scan) : Except Error (Json × Scan) :=
  match combine? 8 (Binary64.ofNat n) power with
  | some x => .ok (.double (if negative then x.neg else x), s)
  | none => .error (s.faultHere .numberOutOfRange)

/-- The digits of an exponent, as long as they stay below `2 ^ 31`; otherwise the number of digits
read when they grew too large. -/
def exponentDigits : List Char → Nat → Nat → Nat ⊕ Nat
  | [], n, _ => .inl n
  | c :: cs, n, count =>
      if twoTo 31 - 1 < n * 10 + digitValue c then .inr (count + 1)
      else exponentDigits cs (n * 10 + digitValue c) (count + 1)

/-- The exponent after its mark, and the number it makes. -/
def readExponent (negative : Bool) (n : Nat) (power : Int) (s : Scan) :
    Except Error (Json × Scan) :=
  let below := s.rest.head? == some '-'
  let s := if below || s.rest.head? == some '+' then s.next else s
  match s.rest with
  | [] => .error (s.faultHere .endInValue)
  | c :: _ =>
      if !c.isDigit then .error (s.faultAhead .invalidNumber)
      else
        let digits := s.rest.takeWhile Char.isDigit
        let past := s.skip digits.length
        match exponentDigits digits 0 0 with
        | .inl e => doubleFrom negative n (if below then power - e else power + e) past
        | .inr count =>
            -- so large an exponent leaves zero or nothing at all
            if n ≠ 0 ∧ !below then .error ((s.skip count).faultHere .numberOutOfRange)
            else .ok (.double (.finite negative 0 Binary64.leastExponent), past)

/-- Whether a character marks an exponent. -/
def isExponentMark (c : Char) : Bool := c == 'e' || c == 'E'

/-- The fraction after its point, and the number it makes. -/
def readFraction (negative : Bool) (n : Nat) (power : Int) (s : Scan) :
    Except Error (Json × Scan) :=
  let digits := s.rest.takeWhile Char.isDigit
  if digits.isEmpty then
    .error (s.faultAhead (if s.rest.isEmpty then .endInValue else .invalidNumber))
  else
    let past := s.skip digits.length
    let (n, power) := fractionPart digits n power
    if past.rest.head?.any isExponentMark then readExponent negative n power past.next
    else doubleFrom negative n power past

/-- The number whose digits before the point are given; `s` is after them. -/
def finishNumber (negative : Bool) (digits : List Char) (s : Scan) : Except Error (Json × Scan) :=
  let (n, power) := wholePart digits 0
  match s.rest with
  | '.' :: _ => readFraction negative n power s.next
  | c :: _ =>
      if isExponentMark c then readExponent negative n power s.next else whole n power
  | [] => whole n power
where
  /-- A number without point and exponent.  A negative zero and numbers beyond the words are
  doubles. -/
  whole (n power : Nat) : Except Error (Json × Scan) :=
    if power ≠ 0 then doubleFrom negative n power s
    else if !negative then .ok (.integer n, s)
    else if n == 0 || twoTo 63 < n then .ok (.double (Binary64.ofNat n).neg, s)
    else .ok (.integer (-(n : Int)), s)

/-- A number after its sign. -/
def readNumber (negative : Bool) (s : Scan) : Except Error (Json × Scan) :=
  match s.rest with
  | [] => .error (s.faultHere .endInValue)
  | '0' :: cs =>
      -- no digit may follow a zero at the front
      if cs.head?.any Char.isDigit then .error (s.next.faultAhead .invalidNumber)
      else finishNumber negative ['0'] s.next
  | c :: _ =>
      if c.isDigit then
        let digits := s.rest.takeWhile Char.isDigit
        finishNumber negative digits (s.skip digits.length)
      else .error (s.faultAhead .invalidNumber)

/-! ### Values -/

/-- The rest of one of the three words of the format. -/
def readWord (value : Json) : List Char → Scan → Except Error (Json × Scan)
  | [], s => .ok (value, s)
  | e :: es, s =>
      match s.rest with
      | [] => .error (s.faultHere .endInValue)
      | c :: _ => if c = e then readWord value es s.next else .error (s.faultAhead .expectedWord)

/-- The elements of a list after its opening bracket, given a reading of values.  `first` says
whether none has been read yet; `bound` bounds the number of elements. -/
def readElements (value : Scan → Except Error (Json × Scan)) :
    Nat → Bool → List Json → Scan → Except Error (Json × Scan)
  | 0, _, _, s => .error (s.faultHere .endInList)
  | bound + 1, first, read, s => do
      let s := skipBlanks s
      match s.rest with
      | [] => .error (s.faultHere .endInList)
      | ']' :: _ => .ok (.array read.reverse, s.next)
      | c :: _ =>
          if first then
            let (v, s) ← value s
            readElements value bound false (v :: read) s
          else if c ≠ ',' then .error (s.faultAhead .expectedListEnd)
          else
            let s := skipBlanks s.next
            match s.rest with
            | [] => .error (s.faultHere .endInValue)
            | ']' :: _ => .error (s.faultAhead .trailingComma)
            | _ =>
                let (v, s) ← value s
                readElements value bound false (v :: read) s

/-- A key and its value, from the key's opening quote on. -/
def readMember (value : Scan → Except Error (Json × Scan)) (s : Scan) :
    Except Error ((String × Json) × Scan) := do
  let (key, s) ← readText [] s.next.position s.next.rest
  let s := skipBlanks s
  match s.rest with
  | [] => .error (s.faultHere .endInObject)
  | ':' :: _ =>
      let (v, s) ← value s.next
      return ((key, v), s)
  | _ => .error (s.faultAhead .expectedColon)

/-- The members of an object after its opening brace, given a reading of values. -/
def readMembers (value : Scan → Except Error (Json × Scan)) :
    Nat → Bool → Members → Scan → Except Error (Json × Scan)
  | 0, _, _, s => .error (s.faultHere .endInObject)
  | bound + 1, first, read, s => do
      let s := skipBlanks s
      match s.rest with
      | [] => .error (s.faultHere .endInObject)
      | '\x7d' :: _ => .ok (.object read, s.next)
      | c :: _ =>
          if first then
            if c ≠ '"' then .error (s.faultAhead .keyNotString)
            else
              let ((k, v), s) ← readMember value s
              readMembers value bound false (read.put k v) s
          else if c ≠ ',' then .error (s.faultAhead .expectedObjectEnd)
          else
            let s := skipBlanks s.next
            match s.rest with
            | [] => .error (s.faultHere .endInValue)
            | '\x7d' :: _ => .error (s.faultAhead .trailingComma)
            | d :: _ =>
                if d ≠ '"' then .error (s.faultAhead .keyNotString)
                else
                  let ((k, v), s) ← readMember value s
                  readMembers value bound false (read.put k v) s

/-- A value in which lists and objects nest at most `depth` deep. -/
def readValue : Nat → Scan → Except Error (Json × Scan)
  | depth, s =>
      let s := skipBlanks s
      match s.rest with
      | [] => .error (s.faultHere .endInValue)
      | 'n' :: _ => readWord .null ['u', 'l', 'l'] s.next
      | 't' :: _ => readWord (.bool true) ['r', 'u', 'e'] s.next
      | 'f' :: _ => readWord (.bool false) ['a', 'l', 's', 'e'] s.next
      | '-' :: _ => readNumber true s.next
      | '"' :: _ => do
          let (text, s) ← readText [] s.next.position s.next.rest
          return (.string text, s)
      | '[' :: _ =>
          match depth with
          | 0 => .error (s.faultAhead .tooDeep)
          | depth + 1 => readElements (readValue depth) s.rest.length true [] s.next
      | '\x7b' :: _ =>
          match depth with
          | 0 => .error (s.faultAhead .tooDeep)
          | depth + 1 => readMembers (readValue depth) s.rest.length true [] s.next
      | c :: _ => if c.isDigit then readNumber false s else .error (s.faultAhead .expectedValue)

/-- How deep lists and objects can nest. -/
def maxDepth : Nat := 127

/-- A whole text, given by its characters. -/
def parseChars (cs : List Char) : Except Error Json := do
  let (v, s) ← readValue maxDepth ⟨cs, Position.origin⟩
  let s := skipBlanks s
  if s.rest.isEmpty then return v else .error (s.faultAhead .trailingCharacters)

/-- A whole text. -/
def parse (text : String) : Except Error Json := parseChars text.toList

end SchemaScope.Json
