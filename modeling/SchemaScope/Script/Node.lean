/-
**Syntax nodes of a script.**

A script is read into a tree of nodes.  Every node has a kind, the role it plays in its parent, the
location and the text it covers, and its children in source order.  Punctuation and keywords are
nodes too, of the anonymous kind `Kind.token`; a comment is a node at the place where it stands.

Main definitions:

* `Kind`, `Role` — the grammatical categories and the roles of children;
* `Node` — a node with its children;
* `Node.preorder` — all nodes of a tree, a parent before its children, in source order;
* `Node.significant` — the named children of a node, comments left out;
* `Node.child?` — the child that plays a given role.
-/

import SchemaScope.Source.Location

set_option autoImplicit false

namespace SchemaScope.Script

/-- The grammatical category of a node. -/
inductive Kind where
  | token (text : String)
  | comment
  | program | hashBang
  | identifier | propertyIdentifier | privateIdentifier | statementIdentifier
  | shorthandProperty | shorthandPattern
  | number | string | template | templateSubstitution | regex
  | this | super | nullLiteral | trueLiteral | falseLiteral | undefined | importKeyword
  | metaProperty
  | parenthesized | sequence | array | object | pair | method | spread | computedName
  | arrayPattern | objectPattern | pairPattern | defaultPattern | shorthandDefault | restPattern
  | member | subscript | call | newExpression | arguments
  | functionExpression | generatorFunction | arrowFunction | formalParameters
  | functionDeclaration | generatorDeclaration
  | classExpression | classDeclaration | classHeritage | classBody | field | staticBlock | decorator
  | unary | update | binary | ternary | assignment | augmentedAssignment | await | yield
  | statementBlock | expressionStatement | emptyStatement | variableDeclaration | variableDeclarator
  | lexicalDeclaration | ifStatement | elseClause | forStatement | forInStatement | whileStatement
  | doStatement | switchStatement | switchBody | switchCase | switchDefault | tryStatement
  | catchClause | finallyClause | withStatement | breakStatement | continueStatement
  | returnStatement | throwStatement | debuggerStatement | labeledStatement
  | importStatement | importClause | namespaceImport | namedImports | importSpecifier
  | importAttribute | exportStatement | exportClause | exportSpecifier | namespaceExport
  deriving DecidableEq, Repr, Inhabited

namespace Kind

/-- The word by which a kind is known in the published grammar of scripts. -/
def name : Kind → String
  | .token text => text
  | .comment => "comment"
  | .program => "program"
  | .hashBang => "hash_bang_line"
  | .identifier => "identifier"
  | .propertyIdentifier => "property_identifier"
  | .privateIdentifier => "private_property_identifier"
  | .statementIdentifier => "statement_identifier"
  | .shorthandProperty => "shorthand_property_identifier"
  | .shorthandPattern => "shorthand_property_identifier_pattern"
  | .number => "number"
  | .string => "string"
  | .template => "template_string"
  | .templateSubstitution => "template_substitution"
  | .regex => "regex"
  | .this => "this"
  | .super => "super"
  | .nullLiteral => "null"
  | .trueLiteral => "true"
  | .falseLiteral => "false"
  | .undefined => "undefined"
  | .importKeyword => "import"
  | .metaProperty => "meta_property"
  | .parenthesized => "parenthesized_expression"
  | .sequence => "sequence_expression"
  | .array => "array"
  | .object => "object"
  | .pair => "pair"
  | .method => "method_definition"
  | .spread => "spread_element"
  | .computedName => "computed_property_name"
  | .arrayPattern => "array_pattern"
  | .objectPattern => "object_pattern"
  | .pairPattern => "pair_pattern"
  | .defaultPattern => "assignment_pattern"
  | .shorthandDefault => "object_assignment_pattern"
  | .restPattern => "rest_pattern"
  | .member => "member_expression"
  | .subscript => "subscript_expression"
  | .call => "call_expression"
  | .newExpression => "new_expression"
  | .arguments => "arguments"
  | .functionExpression => "function_expression"
  | .generatorFunction => "generator_function"
  | .arrowFunction => "arrow_function"
  | .formalParameters => "formal_parameters"
  | .functionDeclaration => "function_declaration"
  | .generatorDeclaration => "generator_function_declaration"
  | .classExpression => "class"
  | .classDeclaration => "class_declaration"
  | .classHeritage => "class_heritage"
  | .classBody => "class_body"
  | .field => "field_definition"
  | .staticBlock => "class_static_block"
  | .decorator => "decorator"
  | .unary => "unary_expression"
  | .update => "update_expression"
  | .binary => "binary_expression"
  | .ternary => "ternary_expression"
  | .assignment => "assignment_expression"
  | .augmentedAssignment => "augmented_assignment_expression"
  | .await => "await_expression"
  | .yield => "yield_expression"
  | .statementBlock => "statement_block"
  | .expressionStatement => "expression_statement"
  | .emptyStatement => "empty_statement"
  | .variableDeclaration => "variable_declaration"
  | .variableDeclarator => "variable_declarator"
  | .lexicalDeclaration => "lexical_declaration"
  | .ifStatement => "if_statement"
  | .elseClause => "else_clause"
  | .forStatement => "for_statement"
  | .forInStatement => "for_in_statement"
  | .whileStatement => "while_statement"
  | .doStatement => "do_statement"
  | .switchStatement => "switch_statement"
  | .switchBody => "switch_body"
  | .switchCase => "switch_case"
  | .switchDefault => "switch_default"
  | .tryStatement => "try_statement"
  | .catchClause => "catch_clause"
  | .finallyClause => "finally_clause"
  | .withStatement => "with_statement"
  | .breakStatement => "break_statement"
  | .continueStatement => "continue_statement"
  | .returnStatement => "return_statement"
  | .throwStatement => "throw_statement"
  | .debuggerStatement => "debugger_statement"
  | .labeledStatement => "labeled_statement"
  | .importStatement => "import_statement"
  | .importClause => "import_clause"
  | .namespaceImport => "namespace_import"
  | .namedImports => "named_imports"
  | .importSpecifier => "import_specifier"
  | .importAttribute => "import_attribute"
  | .exportStatement => "export_statement"
  | .exportClause => "export_clause"
  | .exportSpecifier => "export_specifier"
  | .namespaceExport => "namespace_export"

/-- Keywords and punctuation are anonymous; every other kind is named. -/
def isNamed : Kind → Bool
  | .token _ => false
  | _ => true

/-- The kinds of a function written as an expression, arrow functions included.  A generator does
not count as one. -/
def isFunctionLiteral : Kind → Bool
  | .functionExpression | .arrowFunction => true
  | _ => false

end Kind

/-- The part a child plays in its parent, where the parent's children are told apart by it. -/
inductive Role where
  | key | value
  | callee | constructed | arguments
  | object | property | index
  | operator | argument
  | parameter | parameters | body
  | left | right | name | label
  | condition | consequence | alternative
  | source
  deriving DecidableEq, Repr, Inhabited

/-- A node of a script. -/
structure Node where
  kind : Kind
  role : Option Role
  location : Location
  text : String
  children : List Node
  deriving Repr, Inhabited

namespace Node

mutual

/-- The number of nodes of a tree. -/
def size : Node → Nat
  | ⟨_, _, _, _, children⟩ => sizes children + 1

/-- The number of nodes of several trees. -/
def sizes : List Node → Nat
  | [] => 0
  | n :: rest => n.size + sizes rest

end

@[simp] theorem sizes_nil : sizes [] = 0 := rfl

@[simp] theorem sizes_cons (n : Node) (rest : List Node) :
    sizes (n :: rest) = n.size + sizes rest := rfl

theorem size_eq (n : Node) : n.size = sizes n.children + 1 := by cases n; rfl

theorem size_pos (n : Node) : 0 < n.size := by rw [size_eq]; exact Nat.succ_pos _

mutual

/-- All nodes of a tree, each before its children, in source order. -/
def preorder : Node → List Node
  | ⟨kind, role, location, text, children⟩ =>
      ⟨kind, role, location, text, children⟩ :: preorders children

/-- All nodes of several trees, one tree after the other. -/
def preorders : List Node → List Node
  | [] => []
  | n :: rest => n.preorder ++ preorders rest

end

@[simp] theorem preorders_nil : preorders [] = [] := rfl

@[simp] theorem preorders_cons (n : Node) (rest : List Node) :
    preorders (n :: rest) = n.preorder ++ preorders rest := rfl

theorem preorder_eq (n : Node) : n.preorder = n :: preorders n.children := by cases n; rfl

/-- The named children of a node without the comments between them. -/
def significant (n : Node) : List Node :=
  n.children.filter fun c => c.kind.isNamed && c.kind != .comment

/-- The child that plays `role`. -/
def child? (n : Node) (role : Role) : Option Node :=
  n.children.find? fun c => c.role == some role

/-- The node in another role. -/
def inRole (n : Node) (role : Role) : Node := { n with role := some role }

/-- Whether the node is a function written as an expression. -/
def isFunctionLiteral (n : Node) : Bool := n.kind.isFunctionLiteral

@[simp] theorem inRole_kind (n : Node) (role : Role) : (n.inRole role).kind = n.kind := rfl

@[simp] theorem inRole_children (n : Node) (role : Role) :
    (n.inRole role).children = n.children := rfl

end Node

end SchemaScope.Script
