/-
**Reading a script one lexeme at a time.**

A reader stands before a lexeme and knows where the last one ended and whether a line ended since.
The grammar is written with the operations of this module.  A reading either succeeds with a value
and the reader moved on, or it fails, and a failure is final: the script has no tree.

The grammar's categories refer to one another.  `Goal` names them, and a `Grammar` is a way to read
every goal; a production is given the grammar for its parts, so no production is recursive by
itself (see `Script/Tree.lean` for the knot).

Main definitions:

* `Reader`, `Reader.start`, `Reader.consume` — the state and its one move;
* `Parse` — readings;
* `Parse.leaf`, `Parse.symbol`, `Parse.keyword` — reading one lexeme;
* `Parse.enclose` — a node around everything read since a place;
* `Parse.iterate` — repetition, as long as something is read;
* `Goal`, `Grammar` — the categories that refer to one another.
-/

import SchemaScope.Script.Lexeme

set_option autoImplicit false

namespace SchemaScope.Script

/-- A place between two lexemes. -/
structure Reader where
  /-- The characters from the next lexeme on. -/
  rest : List Char
  /-- The mark of the next lexeme. -/
  mark : Mark
  /-- The next lexeme. -/
  next : Lexeme
  /-- Whether a line ends between the last lexeme and the next. -/
  lineBreak : Bool
  /-- The mark at which the last lexeme ended. -/
  last : Mark
  /-- The characters after the last lexeme, blanks and comments included. -/
  gap : List Char
  /-- The comments passed over so far, newest first. -/
  comments : List Node
  deriving Inhabited

namespace Reader

/-- The reader that has just passed a lexeme ending at `m`, with `cs` after it. -/
def settle (comments : List Node) (m : Mark) (cs : List Char) : Reader :=
  let trivia := Trivia.skip comments false m 0 cs
  { rest := trivia.rest, mark := trivia.mark, next := Lexeme.read trivia.rest
    lineBreak := trivia.lineBreak, last := m, gap := cs, comments := trivia.comments }

/-- The reader before the first lexeme of a text. -/
def start (cs : List Char) : Reader := settle [] Mark.origin cs

/-- The reader after the next `width` characters. -/
def consume (r : Reader) (width : Nat) : Reader :=
  settle r.comments (r.mark.advanceText (r.rest.take width)) (r.rest.drop width)

end Reader

/-- A reading that yields a value, or fails. -/
abbrev Parse (α : Type) := StateT Reader Option α

/-- The categories of the grammar that refer to one another.  The flag of an expression says whether
the word `in` is an operator there, which it is not in the head of a `for`. -/
inductive Goal where
  | statement
  | block
  | expression (allowIn : Bool)
  | assignment (allowIn : Bool)
  | binary (allowIn : Bool) (level : Nat)
  | unary
  | chained
  | constructed
  | parameters
  | propertyName
  | classTail
  deriving DecidableEq, Repr, Inhabited

/-- A way to read every category. -/
abbrev Grammar := Goal → Parse Node

namespace Parse

/-- The next lexeme. -/
def peek : Parse Lexeme := do return (← get).next

/-- Whether the next lexeme is the given mark of punctuation. -/
def atSymbol (mark : String) : Parse Bool := do return (← peek).isSymbol mark

/-- Whether the next lexeme is the given word. -/
def atWord (word : String) : Parse Bool := do return (← peek).isWord word

/-- Whether a line ends before the next lexeme. -/
def afterLineBreak : Parse Bool := do return (← get).lineBreak

/-- Fails unless the condition holds. -/
def ensure (condition : Bool) : Parse Unit := if condition then pure () else failure

/-- The node of the given kind around everything read since `start`. -/
def enclose (start : Reader) (kind : Kind) (children : List Node) : Parse Node := do
  let stop := (← get).last
  let text := start.rest.take (stop.count - start.mark.count)
  return ⟨kind, none, start.mark.upTo stop, String.ofList text, children⟩

/-- The next `width` characters as a node without children. -/
def leafOfWidth (kind : Kind) (width : Nat) : Parse Node := do
  let start ← get
  set (start.consume width)
  enclose start kind []

/-- The next lexeme as a node without children. -/
def leaf (kind : Kind) : Parse Node := do leafOfWidth kind (← peek).width

/-- The next lexeme as an anonymous node. -/
def token : Parse Node := do
  let lexeme ← peek
  leaf (.token lexeme.text)

/-- Reads the given mark of punctuation. -/
def symbol (mark : String) : Parse Node := do
  ensure (← atSymbol mark)
  token

/-- Reads the given word. -/
def keyword (word : String) : Parse Node := do
  ensure (← atWord word)
  token

/-- Reads the given mark of punctuation if it comes next. -/
def symbol? (mark : String) : Parse (List Node) := do
  if ← atSymbol mark then return [← token] else return []

/-- Reads the given word if it comes next. -/
def keyword? (word : String) : Parse (List Node) := do
  if ← atWord word then return [← token] else return []

/-- Tries a reading without moving on, and says whether it would succeed with an accepted value. -/
def foresee {α : Type} (p : Parse α) (accept : α → Bool) : Parse Bool := do
  match (p.run (← get)) with
  | some (a, _) => return accept a
  | none => return false

/-- Repeats a step at most `bound` times, until it answers that nothing more follows. -/
def repeatWithin {σ : Type} (step : σ → Parse (Option σ)) : Nat → σ → Parse σ
  | 0, _ => failure
  | bound + 1, s => do
      match ← step s with
      | none => return s
      | some s' => repeatWithin step bound s'

/-- Repeats a step until it answers that nothing more follows.  Each step but the last reads at
least one character, so the number of characters left bounds the repetition. -/
def iterate {σ : Type} (step : σ → Parse (Option σ)) (s : σ) : Parse σ := do
  repeatWithin step ((← get).rest.length + 1) s

/-- Repeats a reading of several nodes until `stop` comes next, and puts the nodes in order. -/
def manyUntil (stop : Lexeme → Bool) (p : Parse (List Node)) : Parse (List Node) := do
  let parts ← iterate (fun parts => do
    if stop (← peek) then return none else return some ((← p) :: parts)) []
  return parts.reverse.flatten

/-- Items between an opening and a closing mark, with commas after each item but the last.  Missing
items are allowed everywhere. -/
def commaList (opening closing : String) (item : Parse Node) : Parse (List Node) := do
  let first ← symbol opening
  let items ← manyUntil (·.isSymbol closing) do
    if ← atSymbol "," then return [← token]
    let n ← item
    if ← atSymbol "," then return [n, ← token]
    ensure (← atSymbol closing)
    return [n]
  let last ← symbol closing
  return first :: items ++ [last]

/-- Items up to a closing mark, with a comma after each but the last; the last may have one too. -/
def separated (closing : String) (item : Parse Node) : Parse (List Node) :=
  manyUntil (·.isSymbol closing) do
    let n ← item
    if ← atSymbol "," then return [n, ← token]
    ensure (← atSymbol closing)
    return [n]

end Parse

end SchemaScope.Script
