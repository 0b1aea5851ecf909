/-
**What the forms of expressions yield.**

Given a grammar that yields readings, each production for expressions yields a reading.  A
production puts a node around what it has read, so all there is to see is that the children fit:
parentheses get one expression, a pair gets its value behind the key, and a callee appears in a call
only.  Where a literal is read again as a target, it stays a part.

Main results:

* `Expression.parenthesized_yields`, `Expression.objectMember_yields`,
  `Expression.postfixStep_yields` — the productions around parentheses, pairs and calls;
* `Expression.template_yields` — templates, whose text is read without the lexemes;
* `Expression.sequence_yields` and the others — one result for each production.
-/

import SchemaScope.Proofs.Script.Reading

set_option autoImplicit false
set_option mvcgen.warning false

namespace SchemaScope.Script.Expression

open Std.Do Parse

open Source (chars)

variable [Source] {g : Grammar} {start : Reader} {before : List Node}

@[spec] theorem name_yields : Yields name fun n => n.IsLeaf chars .identifier := by
  mvcgen [name]
  all_goals grind -ring -linarith

/-! ### Lists -/

@[spec] theorem element_yields (hg : g.Conforms) : Yields (element g) fun n => n.Reading chars := by
  have hgoal := hg.yields
  mvcgen [element, hgoal]
  all_goals grind -ring -linarith

@[spec] theorem arrayLiteral_yields (hg : g.Conforms) :
    Yields (arrayLiteral g) fun n => n.Reading chars := by
  mvcgen [arrayLiteral]
  all_goals grind -ring -linarith

@[spec] theorem callArguments_yields (hg : g.Conforms) :
    Yields (callArguments g) fun n => n.Part chars ∧ n.kind = .arguments := by
  mvcgen [callArguments]
  all_goals grind -ring -linarith

@[spec] theorem parameters_yields (hg : g.Conforms) :
    Yields (parameters g) fun n => n.Reading chars := by
  mvcgen [parameters]
  all_goals grind -ring -linarith

/-! ### Functions -/

@[spec] theorem signatureAndBody_yields (hg : g.Conforms) :
    Yields (signatureAndBody g) (Node.Parts chars) := by
  have hgoal := hg.yields
  mvcgen [signatureAndBody, functionBody, hgoal]
  all_goals grind -ring -linarith

@[spec] theorem functionTail_yields (hg : g.Conforms) {plain generator : Kind} (needsName : Bool)
    (hstart : start.Tidy chars) (hbefore : Node.Parts chars before)
    (hplain : plain.isPlain = true) (hgenerator : generator.isPlain = true) :
    Yields (functionTail g start before plain generator needsName) fun n => n.Reading chars := by
  mvcgen [functionTail]
  all_goals grind -ring -linarith

@[spec] theorem arrowTail_yields (hg : g.Conforms) (hstart : start.Tidy chars)
    (hbefore : Node.Parts chars before) :
    Yields (arrowTail g start before) fun n => n.Reading chars := by
  have hgoal := hg.yields
  mvcgen [arrowTail, hgoal]
  all_goals grind -ring -linarith

omit [Source] in
/-- A single item may stand in parentheses. -/
theorem fits_singleItem {source : List Char} {opening closing : Node} {items : List Node}
    {p : Node → Bool} (hopening : opening.IsMark source) (hclosing : closing.IsMark source)
    (hitems : ∀ n ∈ items.head?, n.Reading source) (hlength : items.length ≤ 1)
    (hlast : items.getLast?.any p = true) :
    Node.Fits source .parenthesized (opening :: items ++ [closing]) := by
  match items, hlength, hlast with
  | [n], _, _ => exact .parenthesized hopening (hitems n rfl) hclosing

/-- One item stands in parentheses as it is, and several become a single sequence. -/
@[spec] theorem parenthesized_yields (hg : g.Conforms) :
    Yields (parenthesized g) fun n => n.Reading chars := by
  mvcgen [parenthesized]
  all_goals grind -ring -linarith [fits_singleItem]

/-! ### Templates -/

/-- Between the parts of a template only the end of the last part moves on, and with it the
characters from there. -/
theorem tidy_withinTemplate {r : Reader} {m : Mark} {cs : List Char} (hr : r.Tidy chars)
    (hm : m.Reaches chars cs) : ({ r with last := m, gap := cs } : Reader).Tidy chars :=
  ⟨hr.mark, hm, hr.comments⟩

theorem tidy_pastChunk {r : Reader} (hr : r.Tidy chars) (width : Nat) :
    ({ r with last := r.last.advanceText (r.gap.take width)
              gap := r.gap.drop width } : Reader).Tidy
      chars :=
  tidy_withinTemplate hr (hr.last.drop width)

theorem tidy_pastQuote {r : Reader} {quote : Char} {after : List Char} (hr : r.Tidy chars)
    (hgap : r.gap = quote :: after) :
    (Reader.settle r.comments (r.last.advance quote) after).Tidy chars :=
  Reader.tidy_settle (Mark.Reaches.advance (hgap ▸ hr.last)) hr.comments

@[spec] theorem templatePart_yields (hg : g.Conforms) :
    Yields (templatePart g) fun part => ∀ n, part = some n → n.Part chars := by
  have hgoal := hg.yields
  mvcgen [templatePart, hgoal]
  case vc1.h_1.pre =>
    rename_i start hstart _ after hgap _
    refine Reader.tidy_settle (Mark.Reaches.advanceText ?_) hstart.comments
    simpa [← hgap] using hstart.last
  case vc3.h_1.post.success.h_1.post.success =>
    rename_i start hstart _ after hgap _ inner ended hended c cs hrest _ stop _ _ _ text
    have hstop : stop.Reaches chars cs := Mark.Reaches.advance (hrest ▸ hended.1.mark)
    have hpart : Node.Reading chars
        ⟨.templateSubstitution, none, start.last.upTo stop, text, [inner]⟩ :=
      .of_plain rfl (by simpa using hended.2.1.part) (hstart.last.placed stop)
    refine ⟨tidy_withinTemplate hended.1 hstop, ?_⟩
    simpa using hpart.part
  all_goals grind -ring -linarith

@[spec] theorem template_yields (hg : g.Conforms) :
    Yields (template g) fun n => n.Reading chars := by
  mvcgen [template]
  case vc1.h_1 =>
    rename_i start hstart c cs hrest
    have hopened : (start.mark.advance c).Reaches chars cs :=
      Mark.Reaches.advance (hrest ▸ hstart.mark)
    refine Yields.andThen (P := Node.Parts chars)
      (iterate_yields (fun parts hparts => ?_) (by simp))
      (fun parts hparts => ?_) (tidy_withinTemplate hstart hopened)
    · -- one round: the characters up to the next substitution, and the substitution
      mvcgen
      all_goals grind -ring -linarith [tidy_pastChunk]
    · -- the closing mark
      mvcgen
      all_goals grind -ring -linarith [tidy_pastQuote]
  all_goals grind -ring -linarith

/-! ### Object literals -/

@[spec] theorem propertyName_yields (hg : g.Conforms) :
    Yields (propertyName g) fun n => n.Reading chars ∧ n.kind ≠ .call := by
  have hgoal := hg.yields
  mvcgen [propertyName, hgoal]
  all_goals grind -ring -linarith [Node.IsLeaf.kind]

@[spec] theorem methodMarks_yields (mayBeStatic : Bool) :
    Yields (methodMarks mayBeStatic) (Node.Parts chars) := by
  mvcgen [methodMarks]
  refine Yields.andThen (P := Node.Parts chars)
    (iterate_yields (fun marks hmarks => ?_) (by simp)) (fun marks hmarks => ?_) ‹_›
  · mvcgen
    all_goals grind -ring -linarith
  · mvcgen
    all_goals grind -ring -linarith

@[spec] theorem objectMember_yields (hg : g.Conforms) :
    Yields (objectMember g) fun n => n.Reading chars := by
  have hgoal := hg.yields
  mvcgen [objectMember, hgoal]
  all_goals grind -ring -linarith

@[spec] theorem objectLiteral_yields (hg : g.Conforms) :
    Yields (objectLiteral g) fun n => n.Reading chars := by
  mvcgen [objectLiteral]
  all_goals grind -ring -linarith

/-! ### Classes -/

@[spec] theorem decorators_yields (hg : g.Conforms) :
    Yields (decorators g) (Node.Parts chars) := by
  have hgoal := hg.yields
  mvcgen [decorators, hgoal]
  all_goals grind -ring -linarith

@[spec] theorem mayEnd_yields : Yields mayEnd fun _ => True := by
  mvcgen [mayEnd]

@[spec] theorem semicolon_yields : Yields semicolon (Node.Parts chars) := by
  mvcgen [semicolon]
  all_goals grind -ring -linarith

@[spec] theorem classMember_yields (hg : g.Conforms) :
    Yields (classMember g) (Node.Parts chars) := by
  have hgoal := hg.yields
  mvcgen [classMember, hgoal]
  all_goals grind -ring -linarith

@[spec] theorem classTail_yields (hg : g.Conforms) :
    Yields (classTail g) fun n => n.Reading chars ∧ n.kind ≠ .call := by
  have hgoal := hg.yields
  mvcgen [classTail, hgoal]
  all_goals grind -ring -linarith

@[spec] theorem classAfter_yields (hg : g.Conforms) {kind : Kind} (hstart : start.Tidy chars)
    (hbefore : Node.Parts chars before) (hkind : kind.isPlain = true) :
    Yields (classAfter g start before kind) fun n => n.Reading chars := by
  have hgoal := hg.yields
  mvcgen [classAfter, hgoal]
  all_goals grind -ring -linarith

/-! ### Primary expressions -/

@[spec] theorem nameOrArrow_yields (hg : g.Conforms) :
    Yields (nameOrArrow g) fun n => n.Reading chars := by
  mvcgen [nameOrArrow]
  all_goals grind -ring -linarith

@[spec] theorem asyncOrName_yields (hg : g.Conforms) :
    Yields (asyncOrName g) fun n => n.Reading chars := by
  mvcgen [asyncOrName]
  all_goals grind -ring -linarith

@[spec] theorem importExpression_yields : Yields importExpression fun n => n.Reading chars := by
  mvcgen [importExpression]
  all_goals grind -ring -linarith

@[spec] theorem wordExpression_yields (hg : g.Conforms) (word : String) :
    Yields (wordExpression g word) fun n => n.Reading chars := by
  mvcgen [wordExpression]
  all_goals grind -ring -linarith [Node.Reading.role]

@[spec] theorem regexLiteral_yields : Yields regexLiteral fun n => n.Reading chars := by
  mvcgen [regexLiteral]
  all_goals grind -ring -linarith

@[spec] theorem primary_yields (hg : g.Conforms) : Yields (primary g) fun n => n.Reading chars := by
  mvcgen [primary]
  all_goals grind -ring -linarith

/-! ### Member access, subscripts and calls -/

@[spec] theorem property_yields : Yields property fun n => n.Part chars := by
  mvcgen [property]
  all_goals grind -ring -linarith

@[spec] theorem subscriptTail_yields (hg : g.Conforms) (hstart : start.Tidy chars)
    (hbefore : Node.Parts chars before) :
    Yields (subscriptTail g start before) fun n => n.Reading chars := by
  have hgoal := hg.yields
  mvcgen [subscriptTail, hgoal]
  all_goals grind -ring -linarith

@[spec] theorem postfixStep_yields (hg : g.Conforms) (calls : Bool) {base : Node}
    (hstart : start.Tidy chars) (hbase : base.Reading chars) :
    Yields (postfixStep g start calls base) fun next => ∀ n, next = some n → n.Reading chars := by
  mvcgen [postfixStep]
  all_goals grind -ring -linarith

@[spec] theorem postfixed_yields (hg : g.Conforms) (calls : Bool) {base : Node}
    (hstart : start.Tidy chars) (hbase : base.Reading chars) :
    Yields (postfixed g start calls base) fun n => n.Reading chars :=
  iterate_yields (fun _ h => postfixStep_yields hg calls hstart h) hbase

@[spec] theorem newExpression_yields (hg : g.Conforms) :
    Yields (newExpression g) fun n => n.Reading chars := by
  have hgoal := hg.yields
  mvcgen [newExpression, hgoal]
  all_goals grind -ring -linarith

@[spec] theorem chained_yields (hg : g.Conforms) (calls : Bool) :
    Yields (chained g calls) fun n => n.Reading chars := by
  mvcgen [chained]
  all_goals grind -ring -linarith

/-! ### Operators -/

@[spec] theorem unary_yields (hg : g.Conforms) : Yields (unary g) fun n => n.Reading chars := by
  have hgoal := hg.yields
  mvcgen [unary, hgoal]
  all_goals grind -ring -linarith

@[spec] theorem binary_yields (hg : g.Conforms) (allowIn : Bool) (level : Nat) :
    Yields (binary g allowIn level) fun n => n.Reading chars := by
  have hgoal := hg.yields
  mvcgen [binary, hgoal]
  rename_i start hstart first
  intro r hr hfirst _
  refine iterate_yields (fun left hleft => ?_) hfirst r hr
  mvcgen [hgoal]
  all_goals grind -ring -linarith

@[spec] theorem yieldExpression_yields (hg : g.Conforms) (allowIn : Bool) :
    Yields (yieldExpression g allowIn) fun n => n.Reading chars := by
  have hgoal := hg.yields
  mvcgen [yieldExpression, hgoal]
  all_goals grind -ring -linarith

@[spec] theorem conditional_yields (hg : g.Conforms) (allowIn : Bool) :
    Yields (conditional g allowIn) fun n => n.Reading chars := by
  have hgoal := hg.yields
  mvcgen [conditional, hgoal]
  all_goals grind -ring -linarith

@[spec] theorem assignment_yields (hg : g.Conforms) (allowIn : Bool) :
    Yields (assignment g allowIn) fun n => n.Reading chars := by
  have hgoal := hg.yields
  mvcgen [assignment, hgoal]
  all_goals grind -ring -linarith

@[spec] theorem sequence_yields (hg : g.Conforms) (allowIn : Bool) :
    Yields (sequence g allowIn) fun n => n.Reading chars := by
  have hgoal := hg.yields
  mvcgen [sequence, hgoal]
  all_goals grind -ring -linarith

end SchemaScope.Script.Expression
