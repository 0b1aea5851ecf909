/-
**Parsers that start from an earlier outcome.**

While a document is edited, a parser can reuse what it made of the text before the edit, once that
has been moved along with the edit.  What comes out of a text is kept even if the text does not
follow the grammar; only a text that does has a root node.

Main definitions:

* `Parser` — a parser whose outcomes can be reused;
* `Parser.tree?` — the tree of a text and its outcome;
* `Parser.standard` — the parser that starts every text anew.
-/

import SchemaScope.Script.Tree
import SchemaScope.Source.Edit

set_option autoImplicit false

namespace SchemaScope.Script

/-- A parser whose outcomes can be reused. -/
structure Parser where
  /-- What comes out of a text, whether or not the text follows the grammar. -/
  Outcome : Type
  /-- Parses a text, on the basis of an earlier outcome if one is given. -/
  parse : String → Option Outcome → Option Outcome
  /-- An outcome moved along with an edit of its text. -/
  move : EditSpan → Outcome → Outcome
  /-- The root node, if the text follows the grammar throughout. -/
  root? : Outcome → Option Node

namespace Parser

/-- The tree of a text, given what came out of it. -/
def tree? (P : Parser) (text : String) (outcome : Option P.Outcome) : Option Tree :=
  (outcome.bind P.root?).map fun root => ⟨text, root⟩

/-- The parser that starts every text anew. -/
def standard : Parser where
  Outcome := Option Node
  parse text _ := some (Tree.readProgram text.toList)
  move _ outcome := outcome
  root? outcome := outcome

end Parser

end SchemaScope.Script
