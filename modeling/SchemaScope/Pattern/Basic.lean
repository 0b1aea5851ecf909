/-
**Text patterns.**

A pattern describes texts by characters of given sets, sequences, alternatives, repetitions, named
groups and conditions on a place.  A match is searched from left to right, and at each place the
alternatives are tried in their order: the first that leads to a match decides.

Main definitions:

* `CharSet`, `CharSet.contains` — sets of characters;
* `Pattern` — patterns;
* `Pattern.Place`, `Pattern.run` — the ways to match a pattern at a place, in order;
* `Pattern.find?`, `Pattern.isMatch` — the first match in a text;
* `Match.group?` — the text of a named group.
-/

import SchemaScope.Text.Blank
import SchemaScope.Text.CaseFold
import SchemaScope.Text.WordChar

set_option autoImplicit false

namespace SchemaScope

open Text

/-- A set of characters. -/
inductive CharSet where
  | range (first last : Char)
  | letter | digit | blank | word
  | anyCase (inner : CharSet)
  | complement (inner : CharSet)
  | union (left right : CharSet)
  | inter (left right : CharSet)
  | empty
  deriving Repr, Inhabited, DecidableEq

namespace CharSet

/-- Whether a character belongs to a set.  A set in any case holds a character if it holds one that
differs from it only in case. -/
def contains : CharSet → Char → Bool
  | .range first last, c => first ≤ c && c ≤ last
  | .letter, c => isLetter c
  | .digit, c => isDecimalDigit c
  | .blank, c => isWhiteSpace c
  | .word, c => isWordChar c
  | .anyCase inner, c => (caseVariants c).any inner.contains
  | .complement inner, c => !inner.contains c
  | .union left right, c => left.contains c || right.contains c
  | .inter left right, c => left.contains c && right.contains c
  | .empty, _ => false

/-- The set of one character. -/
def single (c : Char) : CharSet := .range c c

@[simp] theorem contains_complement (s : CharSet) (c : Char) :
    s.complement.contains c = !s.contains c := rfl

@[simp] theorem contains_union (s t : CharSet) (c : Char) :
    (s.union t).contains c = (s.contains c || t.contains c) := rfl

end CharSet

/-- A condition on a place that reads nothing. -/
inductive Anchor where
  | textStart | textEnd | lineStart | lineEnd
  | wordBoundary | noWordBoundary | wordStart | wordEnd
  deriving Repr, Inhabited, DecidableEq

/-- A pattern. -/
inductive Pattern where
  | empty
  | one (set : CharSet)
  | anchor (condition : Anchor)
  | seq (first second : Pattern)
  | alt (first second : Pattern)
  | repeated (least : Nat) (most : Option Nat) (greedy : Bool) (body : Pattern)
  | group (name : Option String) (body : Pattern)
  deriving Repr, Inhabited, DecidableEq

namespace Pattern

/-! ### Places -/

/-- A place in a text: the character before it, the number of characters before it, the characters
after it, and the groups that have been matched, newest first. -/
structure Place where
  before : Option Char
  index : Nat
  rest : List Char
  groups : List (String × Nat × Nat)
  deriving Repr, Inhabited

namespace Place

/-- Whether a word character stands before the place. -/
def wordBefore (p : Place) : Bool := p.before.any isWordChar

/-- Whether a word character stands after the place. -/
def wordAfter (p : Place) : Bool := p.rest.head?.any isWordChar

/-- Whether a condition holds at the place. -/
def satisfies (p : Place) : Anchor → Bool
  | .textStart => p.before.isNone
  | .textEnd => p.rest.isEmpty
  | .lineStart => p.before.all (· == '\n')
  | .lineEnd => p.rest.head?.all (· == '\n')
  | .wordBoundary => p.wordBefore != p.wordAfter
  | .noWordBoundary => p.wordBefore == p.wordAfter
  | .wordStart => !p.wordBefore && p.wordAfter
  | .wordEnd => p.wordBefore && !p.wordAfter

end Place

/-! ### Matching -/

/-- The first of two answers. -/
def orElse (a : Option Place) (b : Unit → Option Place) : Option Place :=
  match a with
  | some p => some p
  | none => b ()

/-- Rounds of a body that must be matched, and then what follows. -/
def mandatory (body : Place → (Place → Option Place) → Option Place) :
    Nat → Place → (Place → Option Place) → Option Place
  | 0, p, k => k p
  | n + 1, p, k => body p fun q => mandatory body n q k

/-- Rounds of a body that may be matched, at most `bound` of them, and then what follows.  A greedy
repetition tries another round first, a lazy one last.  A round that reads nothing is the last. -/
def optional (body : Place → (Place → Option Place) → Option Place) (greedy : Bool) :
    Nat → Place → (Place → Option Place) → Option Place
  | 0, p, k => k p
  | bound + 1, p, k =>
      let again := fun (_ : Unit) => body p fun q =>
        if p.index < q.index then optional body greedy bound q k else k q
      if greedy then orElse (again ()) fun _ => k p else orElse (k p) again

/-- Matches a pattern at a place and hands every place where it can end, in the order of
preference, to what follows, until that succeeds. -/
def run : Pattern → Place → (Place → Option Place) → Option Place
  | .empty, p, k => k p
  | .one set, p, k =>
      match p.rest with
      | [] => none
      | c :: cs => if set.contains c then k ⟨some c, p.index + 1, cs, p.groups⟩ else none
  | .anchor condition, p, k => if p.satisfies condition then k p else none
  | .seq first second, p, k => first.run p fun q => second.run q k
  | .alt first second, p, k => orElse (first.run p k) fun _ => second.run p k
  | .repeated least most greedy body, p, k =>
      mandatory body.run least p fun q =>
        -- a body that takes no character is not repeated, so the text bounds the repetitions
        let bound := match most with
          | some n => n - least
          | none => q.rest.length + 1
        optional body.run greedy bound q k
  | .group name body, p, k =>
      body.run p fun q =>
        match name with
        | some name => k { q with groups := (name, p.index, q.index) :: q.groups }
        -- a group without a name only keeps its body together
        | none => k q

/-- A match: where it starts and ends, and its named groups, newest first. -/
structure Match where
  start : Nat
  stop : Nat
  groups : List (String × Nat × Nat)
  deriving Repr, Inhabited

/-- The first match at or after a place. -/
def findFrom? (pattern : Pattern) (before : Option Char) (index : Nat) :
    List Char → Option Match
  | [] => (pattern.run ⟨before, index, [], []⟩ some).map fun q => ⟨index, q.index, q.groups⟩
  | c :: cs =>
      match pattern.run ⟨before, index, c :: cs, []⟩ some with
      | some q => some ⟨index, q.index, q.groups⟩
      | none => findFrom? pattern (some c) (index + 1) cs

/-- The first match in a text. -/
def find? (pattern : Pattern) (text : List Char) : Option Match := pattern.findFrom? none 0 text

/-- Whether a text holds a match. -/
def isMatch (pattern : Pattern) (text : List Char) : Bool := (pattern.find? text).isSome

/-- The text of a named group, if the group took part in the match. -/
def Match.group? (m : Match) (name : String) (text : List Char) : Option (List Char) :=
  (m.groups.find? fun g => g.1 == name).map fun (_, start, stop) =>
    (text.drop start).take (stop - start)

end Pattern

end SchemaScope
