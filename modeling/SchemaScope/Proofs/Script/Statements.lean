/-
**What the forms of statements yield, and what a parse yields.**

As for expressions, each production for statements yields a reading if the grammar does for its
parts.  The grammar is defined by the depth to which its categories nest, so by induction on the
depth every category yields readings, and so does a whole script.  Comments are put into their
places at the end.

Main results:

* `Statement.statement_yields` and the others — one result for each production;
* `conforms_grammarWithin` — **the grammar yields readings, however deep its categories nest**;
* `Tree.conformsThroughout_of_parse?` — **every node of a parsed script conforms**.
-/

import SchemaScope.Proofs.Script.Expressions

set_option autoImplicit false
set_option mvcgen.warning false

namespace SchemaScope.Script

open Std.Do Parse

open Source (chars)

namespace Statement

open Expression

variable [Source] {g : Grammar} {start : Reader} {before : List Node}

/-! ### Small parts -/

@[spec] theorem block_yields (hg : g.Conforms) : Yields (block g) fun n => n.Reading chars := by
  have hgoal := hg.yields
  mvcgen [block, hgoal]
  all_goals grind -ring -linarith

@[spec] theorem condition_yields (hg : g.Conforms) :
    Yields (condition g) fun n => n.Part chars := by
  have hgoal := hg.yields
  mvcgen [condition, hgoal]
  all_goals grind -ring -linarith

@[spec] theorem stringLiteral_yields : Yields stringLiteral fun n => n.IsLeaf chars .string := by
  mvcgen [stringLiteral]
  all_goals grind -ring -linarith

@[spec] theorem endsHere_yields : Yields endsHere fun _ => True := by
  mvcgen [endsHere]

/-! ### Declarations -/

@[spec] theorem bindingTarget_yields (hg : g.Conforms) :
    Yields (bindingTarget g) fun n => n.Part chars := by
  mvcgen [bindingTarget]
  all_goals grind -ring -linarith

@[spec] theorem declarator_yields (hg : g.Conforms) (allowIn : Bool) :
    Yields (declarator g allowIn) fun n =>
      n.Reading chars ∧ n.kind = .variableDeclarator := by
  have hgoal := hg.yields
  mvcgen [declarator, hgoal]
  all_goals grind -ring -linarith

@[spec] theorem moreDeclarators_yields (hg : g.Conforms) (allowIn : Bool) :
    Yields (moreDeclarators g allowIn) (Node.Parts chars) := by
  mvcgen [moreDeclarators]
  all_goals grind -ring -linarith

omit [Source] in
@[grind .] theorem isPlain_declarationKind (word : String) :
    (declarationKind word).isPlain = true := by
  unfold declarationKind
  split <;> rfl

@[spec] theorem atDeclaration_yields : Yields atDeclaration fun _ => True := by
  mvcgen [atDeclaration]
  all_goals grind -ring -linarith

@[spec] theorem declaration_yields (hg : g.Conforms) :
    Yields (declaration g) fun n => n.Reading chars := by
  mvcgen [declaration]
  all_goals grind -ring -linarith

@[spec] theorem functionDeclaration_yields (hg : g.Conforms)
    (needsName : Bool) (hstart : start.Tidy chars)
    (hbefore : Node.Parts chars before) :
    Yields (functionDeclaration g start before needsName) fun n => n.Reading chars := by
  mvcgen [functionDeclaration]
  all_goals grind -ring -linarith

@[spec] theorem classDeclaration_yields (hg : g.Conforms) :
    Yields (classDeclaration g) fun n => n.Reading chars := by
  mvcgen [classDeclaration]
  all_goals grind -ring -linarith

@[spec] theorem atAsyncFunction_yields : Yields atAsyncFunction fun _ => True := by
  mvcgen [atAsyncFunction]
  all_goals grind -ring -linarith

@[spec] theorem declared?_yields (hg : g.Conforms) (needsName : Bool) :
    Yields (declared? g needsName) fun found => ∀ n, found = some n → n.Reading chars := by
  mvcgen [declared?]
  all_goals grind -ring -linarith

/-! ### Branches and loops -/

@[spec] theorem ifStatement_yields (hg : g.Conforms) :
    Yields (ifStatement g) fun n => n.Reading chars := by
  have hgoal := hg.yields
  mvcgen [ifStatement, hgoal]
  all_goals grind -ring -linarith

@[spec] theorem collectionTail_yields (hg : g.Conforms) (hstart : start.Tidy chars)
    (hbefore : Node.Parts chars before) :
    Yields (collectionTail g start before) fun n => n.Reading chars := by
  have hgoal := hg.yields
  mvcgen [collectionTail, hgoal]
  all_goals grind -ring -linarith

@[spec] theorem countingTail_yields (hg : g.Conforms) (hstart : start.Tidy chars)
    (hbefore : Node.Parts chars before) :
    Yields (countingTail g start before) fun n => n.Reading chars := by
  have hgoal := hg.yields
  mvcgen [countingTail, hgoal]
  all_goals grind -ring -linarith

@[spec] theorem forStatement_yields (hg : g.Conforms) :
    Yields (forStatement g) fun n => n.Reading chars := by
  have hgoal := hg.yields
  mvcgen [forStatement, hgoal]
  all_goals grind -ring -linarith

@[spec] theorem whileStatement_yields (hg : g.Conforms) :
    Yields (whileStatement g) fun n => n.Reading chars := by
  have hgoal := hg.yields
  mvcgen [whileStatement, hgoal]
  all_goals grind -ring -linarith

@[spec] theorem doStatement_yields (hg : g.Conforms) :
    Yields (doStatement g) fun n => n.Reading chars := by
  have hgoal := hg.yields
  mvcgen [doStatement, hgoal]
  all_goals grind -ring -linarith

@[spec] theorem withStatement_yields (hg : g.Conforms) :
    Yields (withStatement g) fun n => n.Reading chars := by
  have hgoal := hg.yields
  mvcgen [withStatement, hgoal]
  all_goals grind -ring -linarith

@[spec] theorem switchCase_yields (hg : g.Conforms) :
    Yields (switchCase g) fun n => n.Reading chars := by
  have hgoal := hg.yields
  mvcgen [switchCase, hgoal]
  all_goals grind -ring -linarith

@[spec] theorem switchStatement_yields (hg : g.Conforms) :
    Yields (switchStatement g) fun n => n.Reading chars := by
  mvcgen [switchStatement]
  all_goals grind -ring -linarith

/-! ### Jumps and exceptions -/

@[spec] theorem tryStatement_yields (hg : g.Conforms) :
    Yields (tryStatement g) fun n => n.Reading chars := by
  have hgoal := hg.yields
  mvcgen [tryStatement, hgoal]
  all_goals grind -ring -linarith

@[spec] theorem returnStatement_yields (hg : g.Conforms) :
    Yields (returnStatement g) fun n => n.Reading chars := by
  have hgoal := hg.yields
  mvcgen [returnStatement, hgoal]
  all_goals grind -ring -linarith

@[spec] theorem throwStatement_yields (hg : g.Conforms) :
    Yields (throwStatement g) fun n => n.Reading chars := by
  have hgoal := hg.yields
  mvcgen [throwStatement, hgoal]
  all_goals grind -ring -linarith

@[spec] theorem jumpStatement_yields {kind : Kind} (hkind : kind.isPlain = true) :
    Yields (jumpStatement kind) fun n => n.Reading chars := by
  mvcgen [jumpStatement]
  all_goals grind -ring -linarith

@[spec] theorem debuggerStatement_yields : Yields debuggerStatement fun n => n.Reading chars := by
  mvcgen [debuggerStatement]
  all_goals grind -ring -linarith

/-! ### Modules -/

@[spec] theorem moduleName_yields : Yields moduleName fun n => n.Reading chars := by
  mvcgen [moduleName]
  all_goals grind -ring -linarith

@[spec] theorem specifier_yields {kind : Kind} (hkind : kind.isPlain = true) :
    Yields (specifier kind) fun n => n.Reading chars := by
  mvcgen [specifier]
  all_goals grind -ring -linarith

@[spec] theorem specifiers_yields {kind inner : Kind} (hkind : kind.isPlain = true)
    (hinner : inner.isPlain = true) :
    Yields (specifiers kind inner) fun n => n.Reading chars := by
  mvcgen [specifiers]
  all_goals grind -ring -linarith

@[spec] theorem fromClause_yields : Yields fromClause (Node.Parts chars) := by
  mvcgen [fromClause]
  all_goals grind -ring -linarith

@[spec] theorem importAttribute_yields (hg : g.Conforms) :
    Yields (importAttribute g) (Node.Parts chars) := by
  mvcgen [importAttribute]
  all_goals grind -ring -linarith

@[spec] theorem namespaceImport_yields : Yields namespaceImport fun n => n.Reading chars := by
  mvcgen [namespaceImport]
  all_goals grind -ring -linarith

@[spec] theorem importedNames_yields : Yields importedNames fun n => n.Reading chars := by
  mvcgen [importedNames]
  all_goals grind -ring -linarith

@[spec] theorem importClause_yields : Yields importClause fun n => n.Reading chars := by
  mvcgen [importClause]
  all_goals grind -ring -linarith

@[spec] theorem importStatement_yields (hg : g.Conforms) :
    Yields (importStatement g) fun n => n.Reading chars := by
  mvcgen [importStatement]
  all_goals grind -ring -linarith

@[spec] theorem defaultExport_yields (hg : g.Conforms) :
    Yields (defaultExport g) (Node.Parts chars) := by
  have hgoal := hg.yields
  mvcgen [defaultExport, hgoal]
  all_goals grind -ring -linarith

@[spec] theorem exportAll_yields (hg : g.Conforms) : Yields (exportAll g) (Node.Parts chars) := by
  mvcgen [exportAll]
  all_goals grind -ring -linarith

@[spec] theorem exportStatement_yields (hg : g.Conforms) :
    Yields (exportStatement g) fun n => n.Reading chars := by
  mvcgen [exportStatement]
  all_goals grind -ring -linarith

/-! ### Any statement -/

@[spec] theorem expressionStatement_yields (hg : g.Conforms) :
    Yields (expressionStatement g) fun n => n.Reading chars := by
  have hgoal := hg.yields
  mvcgen [expressionStatement, hgoal]
  all_goals grind -ring -linarith

@[spec] theorem labeledStatement_yields (hg : g.Conforms) :
    Yields (labeledStatement g) fun n => n.Reading chars := by
  have hgoal := hg.yields
  mvcgen [labeledStatement, hgoal]
  all_goals grind -ring -linarith

@[spec] theorem unannounced_yields (hg : g.Conforms) :
    Yields (unannounced g) fun n => n.Reading chars := by
  mvcgen [unannounced]
  all_goals grind -ring -linarith

@[spec] theorem statement_yields (hg : g.Conforms) :
    Yields (statement g) fun n => n.Reading chars := by
  have hgoal := hg.yields
  mvcgen [statement, hgoal]
  all_goals grind -ring -linarith

@[spec] theorem program_yields (hg : g.Conforms) :
    Yields (program g) fun n =>
      n.Reading chars ∧ n.kind = .program := by
  have hgoal := hg.yields
  mvcgen [program, hgoal]
  all_goals grind -ring -linarith

end Statement

/-! ### Whole scripts -/

theorem conforms_production [Source] {g : Grammar} (hg : g.Conforms) :
    Grammar.Conforms (production g) where
  yields goal := by
    -- no category but the two that are taken apart needs more than a reading
    have hplain : ∀ {goal : Goal} {p : Parse Node}, goal ≠ .propertyName → goal ≠ .classTail →
        Yields p (fun n => n.Reading chars) → Yields p fun n =>
          n.Reading chars ∧ (goal = .propertyName ∨ goal = .classTail → n.kind ≠ .call) := by
      intro goal p hname htail hp
      exact hp.weaken fun n hn => ⟨hn, by rintro (h | h) <;> contradiction⟩
    cases goal with
    | statement => exact hplain nofun nofun (Statement.statement_yields hg)
    | block => exact hplain nofun nofun (Statement.block_yields hg)
    | expression allowIn => exact hplain nofun nofun (Expression.sequence_yields hg allowIn)
    | assignment allowIn => exact hplain nofun nofun (Expression.assignment_yields hg allowIn)
    | binary allowIn level => exact hplain nofun nofun (Expression.binary_yields hg allowIn level)
    | unary => exact hplain nofun nofun (Expression.unary_yields hg)
    | chained => exact hplain nofun nofun (Expression.chained_yields hg true)
    | constructed => exact hplain nofun nofun (Expression.chained_yields hg false)
    | parameters => exact hplain nofun nofun (Expression.parameters_yields hg)
    | propertyName =>
        exact (Expression.propertyName_yields hg).weaken fun n hn => ⟨hn.1, fun _ => hn.2⟩
    | classTail => exact (Expression.classTail_yields hg).weaken fun n hn => ⟨hn.1, fun _ => hn.2⟩

/-- **The grammar yields readings, however deep its categories nest.** -/
theorem conforms_grammarWithin [Source] (depth : Nat) : (grammarWithin depth).Conforms := by
  induction depth with
  | zero => exact ⟨fun goal => failure_yields.weaken fun n hn => hn.elim⟩
  | succ depth ih => exact ⟨(conforms_production ih).yields⟩

namespace Tree

variable {source : String} {t : Tree}

/-- A script is read as a program, and then the comments are put in their places. -/
theorem readProgram_eq_some {chars : List Char} {root : Node} (h : readProgram chars = some root) :
    ∃ n r, (Statement.program (grammarWithin (nestingBound chars.length))).run (Reader.start chars)
      = some (n, r) ∧ root = n.weave r.comments.reverse := by
  simp only [readProgram, Option.bind_eq_bind, Option.bind_eq_some_iff] at h
  obtain ⟨⟨n, r⟩, hrun, h⟩ := h
  split at h
  · cases h
  · exact ⟨n, r, hrun, (Option.some.inj h).symm⟩

/-- **Every node of a parsed script conforms.** -/
theorem conformsThroughout_of_parse? (h : parse? source = some t) :
    t.root.ConformsThroughout source.toList ∧ t.root.kind = .program := by
  obtain ⟨root, hroot, rfl⟩ := Option.map_eq_some_iff.1 h
  obtain ⟨n, r, hrun, rfl⟩ := readProgram_eq_some hroot
  let _ : Source := ⟨source.toList⟩
  have hprogram := Statement.program_yields
    (conforms_grammarWithin (nestingBound source.toList.length))
  obtain ⟨hr, hn, hkind⟩ := yields_iff.1 hprogram _ n r (Reader.tidy_start _) hrun
  refine ⟨Node.conformsThroughout_weave (fun c hc => ?_) hn.conforms, ?_⟩
  · exact hr.comments c (List.mem_reverse.1 hc)
  · cases n
    exact hkind

end Tree

end SchemaScope.Script
