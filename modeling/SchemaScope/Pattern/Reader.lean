/-
**Reading patterns.**

Patterns are written as characters that stand for themselves and marks with a meaning: classes in
brackets, groups in parentheses, alternatives after a bar, repetitions after an expression, and
escapes after a backslash.  A text that is no pattern has none: in particular there is no looking
ahead or behind and no reference to a group.

Main definitions:

* `Pattern.Flags` — what a pattern's flags say;
* `Pattern.Reading` — readings of pattern text;
* `Pattern.readClass`, `Pattern.readEscape`, `Pattern.readGroup`, `Pattern.readRepeat` — the parts;
* `Pattern.parse?` — the pattern that a text writes.
-/

import SchemaScope.Pattern.Basic
import SchemaScope.Number.Literal

set_option autoImplicit false

namespace SchemaScope.Pattern

open Text

/-- What the flags of a pattern say: letter case does not matter, anchors hold at lines, the dot
takes line ends, and repetitions are lazy unless marked. -/
structure Flags where
  anyCase : Bool
  lines : Bool
  dotAll : Bool
  lazyFirst : Bool
  deriving DecidableEq, Repr, Inhabited

/-- No flag is set. -/
def Flags.off : Flags := ⟨false, false, false, false⟩

/-- The text still to be read, the flags in force, and the names of groups so far. -/
structure Progress where
  rest : List Char
  flags : Flags
  names : List String
  deriving Inhabited

/-- A reading of pattern text that yields a value, or fails. -/
abbrev Reading (α : Type) := StateT Progress Option α

namespace Reading

/-- The next character. -/
def peek? : Reading (Option Char) := do return (← get).rest.head?

/-- The character after the next. -/
def peekSecond? : Reading (Option Char) := do return (← get).rest[1]?

/-- Passes over characters. -/
def skip (n : Nat) : Reading Unit := modify fun s => { s with rest := s.rest.drop n }

/-- Reads any character. -/
def char : Reading Char := do
  match (← get).rest with
  | [] => failure
  | c :: cs =>
      modify fun s => { s with rest := cs }
      return c

/-- Reads the given character. -/
def expect (c : Char) : Reading Unit := do
  if (← char) == c then pure () else failure

/-- Reads the given character if it comes next, and says whether it did. -/
def accept (c : Char) : Reading Bool := do
  if (← peek?) == some c then
    skip 1
    return true
  else return false

/-- Whether the text goes on with the given characters. -/
def ahead (text : String) : Reading Bool := do return text.toList.isPrefixOf (← get).rest

/-- Reads the longest run of characters that satisfy `p`. -/
def takeWhile (p : Char → Bool) : Reading (List Char) := do
  let run := (← get).rest.takeWhile p
  skip run.length
  return run

/-- Repeats a step at most `bound` times, until it answers that nothing more follows. -/
def repeatWithin {σ : Type} (step : σ → Reading (Option σ)) : Nat → σ → Reading σ
  | 0, _ => failure
  | bound + 1, s => do
      match ← step s with
      | none => return s
      | some s' => repeatWithin step bound s'

/-- Repeats a step until it answers that nothing more follows; each step but the last reads at least
one character. -/
def iterate {σ : Type} (step : σ → Reading (Option σ)) (s : σ) : Reading σ := do
  repeatWithin step ((← get).rest.length + 1) s

end Reading

open Reading

/-! ### Characters and escapes -/

/-- A set under the flags in force. -/
def cased (set : CharSet) : Reading CharSet := do
  return if (← get).flags.anyCase then .anyCase set else set

/-- What an escape stands for. -/
inductive Escape where
  | literal (c : Char)
  | set (s : CharSet)
  | condition (a : Anchor)
  deriving Inhabited

/-- The character with the given number, if it is one. -/
def charOf? (n : Nat) : Option Char := if n.isValidChar then some (Char.ofNat n) else none

/-- A number in hexadecimal digits: `width` of them, or any positive number of them in braces. -/
def readHex (width : Nat) : Reading Char := do
  let digits ← if ← accept '\x7b' then do
      let digits ← takeWhile (· != '\x7d')
      expect '\x7d'
      pure digits
    else do
      let digits := (← get).rest.take width
      skip width
      if digits.length == width then pure digits else failure
  match (Literal.digits? 16 digits).bind charOf? with
  | some c => return c
  | none => failure

/-- A class of characters by its name after `\p`.  Only letters and decimal digits have names. -/
def namedSet? (name : String) : Option CharSet :=
  match name with
  | "L" | "Letter" => some .letter
  | "Nd" | "Decimal_Number" | "digit" => some .digit
  | _ => none

/-- A named class after `\p` or `\P`, which takes the complement. -/
def readNamedSet (negated : Bool) : Reading CharSet := do
  let name ← if ← accept '\x7b' then do
      let name ← takeWhile (· != '\x7d')
      expect '\x7d'
      pure name
    else pure [← char]
  match namedSet? (String.ofList name) with
  | some set =>
      let set ← cased set
      return if negated then .complement set else set
  | none => failure

/-- What follows a backslash. -/
def readEscape : Reading Escape := do
  let c ← char
  match c with
  | 'd' => return .set .digit
  | 'D' => return .set (.complement .digit)
  | 's' => return .set .blank
  | 'S' => return .set (.complement .blank)
  | 'w' => return .set .word
  | 'W' => return .set (.complement .word)
  | 'p' => return .set (← readNamedSet false)
  | 'P' => return .set (← readNamedSet true)
  | 'x' => return .literal (← readHex 2)
  | 'u' => return .literal (← readHex 4)
  | 'U' => return .literal (← readHex 8)
  | 'a' => return .literal '\x07'
  | 'f' => return .literal '\x0c'
  | 't' => return .literal '\t'
  | 'n' => return .literal '\n'
  | 'r' => return .literal '\r'
  | 'v' => return .literal '\x0b'
  | 'A' => return .condition .textStart
  | 'z' => return .condition .textEnd
  | 'b' => return .condition .wordBoundary
  | 'B' => return .condition .noWordBoundary
  | '<' => return .condition .wordStart
  | '>' => return .condition .wordEnd
  | c => if c.toNat < 0x80 && !c.isAlphanum then return .literal c else failure

/-! ### Classes in brackets -/

/-- The ASCII classes that have a name inside brackets. -/
def asciiSet? (name : String) : Option CharSet :=
  let ranges (rs : List (Char × Char)) : CharSet :=
    rs.foldr (fun (a, b) s => .union (.range a b) s) .empty
  match name with
  | "alnum" => some (ranges [('0', '9'), ('A', 'Z'), ('a', 'z')])
  | "alpha" => some (ranges [('A', 'Z'), ('a', 'z')])
  | "ascii" => some (ranges [('\x00', '\x7f')])
  | "blank" => some (ranges [('\t', '\t'), (' ', ' ')])
  | "cntrl" => some (ranges [('\x00', '\x1f'), ('\x7f', '\x7f')])
  | "digit" => some (ranges [('0', '9')])
  | "graph" => some (ranges [('!', '~')])
  | "lower" => some (ranges [('a', 'z')])
  | "print" => some (ranges [(' ', '~')])
  | "punct" => some (ranges [('!', '/'), (':', '@'), ('[', '\x60'), ('\x7b', '~')])
  | "space" => some (ranges [('\t', '\r'), (' ', ' ')])
  | "upper" => some (ranges [('A', 'Z')])
  | "word" => some (ranges [('0', '9'), ('A', 'Z'), ('_', '_'), ('a', 'z')])
  | "xdigit" => some (ranges [('0', '9'), ('A', 'F'), ('a', 'f')])
  | _ => none

/-- A class such as `[:alpha:]`, if one is written here. -/
def asciiClass? : Reading (Option CharSet) := do
  let body := (← get).rest.drop 2
  let name := body.takeWhile fun c => c != ':' && c != ']'
  if (← ahead "[:") && (body.drop name.length).take 2 == [':', ']'] then
    let (negated, word) := match name with
      | '^' :: rest => (true, rest)
      | _ => (false, name)
    match asciiSet? (String.ofList word) with
    | none => return none
    | some set =>
        skip (name.length + 4)
        let set ← cased set
        return some (if negated then .complement set else set)
  else return none

/-- One character or one escape of a class. -/
def classItem : Reading Escape := do
  let c ← char
  if c == '\\' then
    match ← readEscape with
    | .condition _ => failure
    | e => return e
  else return .literal c

/-- One character, one range or one escape of a class. -/
def classRange : Reading CharSet := do
  let first ← classItem
  let opensRange := (← peek?) == some '-' && (← peekSecond?).all fun c => c != ']' && c != '-'
  if opensRange then
    skip 1
    match first, ← classItem with
    | .literal a, .literal b => if a ≤ b then cased (.range a b) else failure
    | _, _ => failure
  else
    match first with
    | .literal a => cased (.single a)
    | .set s => return s
    | .condition _ => failure

/-- The marks that join two parts of a class. -/
inductive ClassOp where
  | inter | difference | symmetric

/-- Two parts of a class joined. -/
def ClassOp.apply : ClassOp → CharSet → CharSet → CharSet
  | .inter, a, b => .inter a b
  | .difference, a, b => .inter a (.complement b)
  | .symmetric, a, b => .union (.inter a (.complement b)) (.inter b (.complement a))

/-- A joining mark, if one comes next. -/
def classOp? : Reading (Option ClassOp) := do
  let op ← if ← ahead "&&" then pure (some .inter)
    else if ← ahead "--" then pure (some .difference)
    else if ← ahead "~~" then pure (some .symmetric)
    else pure none
  if op.isSome then skip 2
  return op

/-- What has been read of a class: the part before the last joining mark, and the set since. -/
structure ClassProgress where
  joined : Option (CharSet × ClassOp)
  current : CharSet

/-- The whole set read so far. -/
def ClassProgress.total (p : ClassProgress) : CharSet :=
  match p.joined with
  | none => p.current
  | some (left, op) => op.apply left p.current

/-- The leading hyphens of a class, and a closing bracket before anything else, which stand for
themselves. -/
def classOpening : Reading CharSet := do
  let hyphens ← takeWhile (· == '-')
  if !hyphens.isEmpty then return ← cased (.single '-')
  if ← accept ']' then cased (.single ']') else return .empty

/-- A class in brackets, after the opening one, given a reading of nested classes. -/
def classBody (nested : Reading CharSet) : Reading CharSet := do
  let negated ← accept '^'
  let opening ← classOpening
  let progress ← iterate (fun (p : ClassProgress) => do
    if (← peek?) == some ']' then return none
    match ← asciiClass? with
    | some set => return some { p with current := .union p.current set }
    | none =>
        if ← accept '[' then return some { p with current := .union p.current (← nested) }
        match ← classOp? with
        | some op => return some ⟨some (p.total, op), .empty⟩
        | none => return some { p with current := .union p.current (← classRange) }) ⟨none, opening⟩
  expect ']'
  return if negated then .complement progress.total else progress.total

/-- A class in brackets, after the opening one, with classes nested at most `depth` deep. -/
def readClass : Nat → Reading CharSet
  | 0 => failure
  | depth + 1 => classBody (readClass depth)

/-! ### Repetitions -/

/-- Wraps the expression before a mark of repetition; a question mark after the mark reverses its
preference. -/
def finishRepeat (least : Nat) (most : Option Nat) (body : Pattern) : Reading Pattern := do
  let reversed ← accept '?'
  let lazyFirst := (← get).flags.lazyFirst
  return .repeated least most (reversed == lazyFirst) body

/-- A number with blanks around it, below `2 ^ 32`. -/
def readCount : Reading (Option Nat) := do
  let _ ← takeWhile isWhiteSpace
  let digits ← takeWhile Char.isDigit
  let _ ← takeWhile isWhiteSpace
  if digits.isEmpty then return none
  match Literal.digits? 10 digits with
  | some n => if n < twoTo 32 then return some n else failure
  | none => failure

/-- The counts in braces: one number, a least number, or a least and a most number. -/
def readCounts : Reading (Nat × Option Nat) := do
  expect '\x7b'
  match ← readCount with
  | none => failure
  | some least =>
      if ← accept ',' then
        if ← accept '\x7d' then return (least, none)
        match ← readCount with
        | none => failure
        | some most =>
            expect '\x7d'
            if least ≤ most then return (least, some most) else failure
      else
        expect '\x7d'
        return (least, some least)

/-- A mark of repetition after an expression, if one comes next. -/
def readRepeat? (body : Pattern) : Reading (Option Pattern) := do
  match ← peek? with
  | some '*' =>
      skip 1
      return some (← finishRepeat 0 none body)
  | some '+' =>
      skip 1
      return some (← finishRepeat 1 none body)
  | some '?' =>
      skip 1
      return some (← finishRepeat 0 (some 1) body)
  | some '\x7b' =>
      let (least, most) ← readCounts
      return some (← finishRepeat least most body)
  | _ => return none

/-! ### Groups and flags -/

/-- Flags with one letter set or cleared. -/
def Flags.assign (f : Flags) (value : Bool) : Char → Option Flags
  | 'i' => some { f with anyCase := value }
  | 'm' => some { f with lines := value }
  | 's' => some { f with dotAll := value }
  | 'U' => some { f with lazyFirst := value }
  | 'u' => if value then some f else none
  | _ => none

/-- The letters of a group's flags that have been read: the flags they leave, whether letters set or
clear, which letters there were, and whether a hyphen came last. -/
structure FlagProgress where
  flags : Flags
  value : Bool
  seen : List Char
  dangling : Bool

/-- The letters of a group's flags up to a colon or a closing parenthesis; letters after a hyphen
clear their flag.  No letter comes twice. -/
def readFlags : Reading Flags := do
  let progress ← iterate (fun p : FlagProgress => do
    match ← peek? with
    | none => failure
    | some ':' => return none
    | some ')' => return none
    | some '-' =>
        skip 1
        if p.value then return some { p with value := false, dangling := true } else failure
    | some c =>
        skip 1
        match p.flags.assign p.value c with
        | some flags =>
            if p.seen.contains c then failure
            return some { p with flags := flags, seen := c :: p.seen, dangling := false }
        | none => failure) ⟨(← get).flags, true, [], false⟩
  if progress.dangling then failure else return progress.flags

/-- Whether a character can open the name of a group. -/
def opensGroupName (c : Char) : Bool := c == '_' || isLetter c

/-- Whether a character can stand in the name of a group. -/
def inGroupName (c : Char) : Bool :=
  opensGroupName c || isDecimalDigit c || c == '.' || c == '[' || c == ']'

/-- The name of a group up to its closing mark; no two groups share one. -/
def readGroupName : Reading String := do
  let chars ← takeWhile (· != '>')
  expect '>'
  let name := String.ofList chars
  let known := (← get).names
  if chars.head?.any opensGroupName && chars.all inGroupName && !known.contains name then
    modify fun s => { s with names := name :: s.names }
    return name
  else failure

/-- A part of a sequence: an expression, or a change of flags, which cannot be repeated. -/
inductive Part where
  | expression (p : Pattern)
  | change

/-- What follows an opening parenthesis, given a reading of alternatives.  Flags set inside a group
end with it. -/
def readGroup (inner : Reading Pattern) : Reading Part := do
  let outer := (← get).flags
  let close (name : Option String) : Reading Part := do
    let body ← inner
    expect ')'
    modify fun s => { s with flags := outer }
    return .expression (.group name body)
  if ← accept '?' then
    if ← ahead "P<" then
      skip 2
      let name ← readGroupName
      close (some name)
    else if (← ahead "<") && !(← ahead "<=") && !(← ahead "<!") then
      skip 1
      let name ← readGroupName
      close (some name)
    else if ← ahead ")" then failure
    else
      let flags ← readFlags
      -- flags alone hold for the rest of the surrounding group
      if ← accept ')' then
        modify fun s => { s with flags := flags }
        return .change
      else
        expect ':'
        modify fun s => { s with flags := flags }
        close none
  else close none

/-! ### Expressions -/

/-- One expression without what repeats it. -/
def readAtom (inner : Reading Pattern) : Reading Part := do
  let c ← char
  let flags := (← get).flags
  match c with
  | '(' => readGroup inner
  | '[' => return .expression (.one (← readClass ((← get).rest.length + 1)))
  | '.' =>
      let newline := CharSet.single '\n'
      return .expression (.one (if flags.dotAll then .complement .empty else .complement newline))
  | '^' => return .expression (.anchor (if flags.lines then .lineStart else .textStart))
  | '$' => return .expression (.anchor (if flags.lines then .lineEnd else .textEnd))
  | '\\' =>
      match ← readEscape with
      | .literal c => return .expression (.one (← cased (.single c)))
      | .set s => return .expression (.one s)
      | .condition a => return .expression (.anchor a)
  -- nothing stands before these that they could repeat
  | '*' => failure
  | '+' => failure
  | '?' => failure
  | '\x7b' => failure
  | c => return .expression (.one (← cased (.single c)))

/-- Expressions one after the other, up to a bar, a closing parenthesis or the end. -/
def readSequence (inner : Reading Pattern) : Reading Pattern :=
  iterate (fun p => do
    match ← peek? with
    | none => return none
    | some '|' => return none
    | some ')' => return none
    | some _ =>
        match ← readAtom inner with
        | .change => return some p
        | .expression body =>
            let repeated ← iterate readRepeat? body
            return some (.seq p repeated)) .empty

/-- Alternatives with bars between them. -/
def readAlternatives (inner : Reading Pattern) : Reading Pattern := do
  let first ← readSequence inner
  iterate (fun p => do
    if ← accept '|' then return some (.alt p (← readSequence inner)) else return none) first

/-- Alternatives with groups nested at most `depth` deep. -/
def readWithin : Nat → Reading Pattern
  | 0 => failure
  | depth + 1 => readAlternatives (readWithin depth)

/-- The pattern that a text writes. -/
def parse? (text : String) : Option Pattern := do
  let cs := text.toList
  let (pattern, progress) ← (readWithin (cs.length + 1)).run ⟨cs, Flags.off, []⟩
  if progress.rest.isEmpty then some pattern else none

end SchemaScope.Pattern
