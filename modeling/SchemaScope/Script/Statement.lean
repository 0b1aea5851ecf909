/-
**Statements of a script.**

Each production of this module reads one form of statement and takes the grammar for the statements
and expressions inside it.

Main definitions:

* `Statement.block`, `Statement.declaration`, `Statement.forStatement`, … — one production per form;
* `Statement.endsHere` — whether a word such as `return` stands without a value;
* `Statement.statement` — any statement, by its first lexeme;
* `Statement.program` — a whole script.
-/

import SchemaScope.Script.Expression

set_option autoImplicit false

namespace SchemaScope.Script.Statement

open Parse Expression

/-! ### Small parts -/

/-- Statements between braces. -/
def block (g : Grammar) : Parse Node := do
  let start ← get
  let opening ← symbol "\x7b"
  let inner ← manyUntil (·.isSymbol "\x7d") do return [← g .statement]
  let closing ← symbol "\x7d"
  enclose start .statementBlock (opening :: inner ++ [closing])

/-- An expression in parentheses, as after `if` and `while`. -/
def condition (g : Grammar) : Parse Node := do
  let start ← get
  let opening ← symbol "("
  let inner ← g (.expression true)
  let closing ← symbol ")"
  return (← enclose start .parenthesized [opening, inner, closing]).inRole .condition

/-- Reads a string. -/
def stringLiteral : Parse Node := do
  ensure ((← peek).form == .string)
  leaf .string

/-- Whether the characters at the start of a line can only open a new statement, rather than go on
with the line before. -/
def opensStatement : List Char → Bool
  | '.' :: c :: _ => c.isDigit
  | '+' :: c :: _ => c == '+'
  | '-' :: c :: _ => c == '-'
  | '!' :: c :: _ => c != '='
  | c :: _ => !("`,:;*%><=[(?^|&/".toList.contains c)
  | [] => true

/-- Whether a value that may be left out ends before the given characters.  It ends at a brace, at
the end of the text, after a comment that ends its line, and at a line end unless the next line
goes on (`rest` is what follows all blanks and comments).  `inside` characters still belong to a
comment. -/
def endsBefore (rest : List Char) : Nat → List Char → Bool
  | _, [] => true
  | inside + 1, _ :: cs => endsBefore rest inside cs
  | 0, c :: cs =>
      if c == '\x7d' then true
      else if isLineBreak c then opensStatement rest
      else if isBlank c then endsBefore rest 0 cs
      else
        match scanComment (c :: cs) with
        | some (w + 1) =>
            let text := (c :: cs).take (w + 1)
            if ['/', '/'].isPrefixOf text || text.any isLineBreak then true
            else endsBefore rest w cs
        | _ => false

/-- Whether the value after a word such as `return` is left out. -/
def endsHere : Parse Bool := do
  let r ← get
  return r.next.isSymbol ";" || endsBefore r.rest 0 r.gap

/-! ### Declarations -/

/-- A name or a destructuring pattern. -/
def bindingTarget (g : Grammar) : Parse Node := do
  if ← atSymbol "[" then (← arrayLiteral g).toTarget?
  else if ← atSymbol "\x7b" then (← objectLiteral g).toTarget?
  else name

/-- One variable of a declaration with its value. -/
def declarator (g : Grammar) (allowIn : Bool) : Parse Node := do
  let start ← get
  let target ← bindingTarget g
  if ← atSymbol "=" then
    let equals ← token
    let value ← g (.assignment allowIn)
    enclose start .variableDeclarator [target.inRole .name, equals, value.inRole .value]
  else enclose start .variableDeclarator [target.inRole .name]

/-- The further variables of a declaration, with the commas before them. -/
def moreDeclarators (g : Grammar) (allowIn : Bool) : Parse (List Node) :=
  manyUntil (fun l => !l.isSymbol ",") do
    let comma ← token
    return [comma, ← declarator g allowIn]

/-- The kind of a declaration by its word. -/
def declarationKind (word : String) : Kind :=
  if word == "var" then .variableDeclaration else .lexicalDeclaration

/-- Whether a declaration of variables comes next.  The word `let` opens one only before a name or
a pattern. -/
def atDeclaration : Parse Bool := do
  let lexeme ← peek
  if lexeme.isWord "var" || lexeme.isWord "const" then return true
  if lexeme.isWord "let" then
    foresee (do let _ ← token; peek) fun l =>
      isName l || l.isSymbol "[" || l.isSymbol "\x7b" || l.isWord "yield" || l.isWord "await"
  else return false

/-- A declaration of variables. -/
def declaration (g : Grammar) : Parse Node := do
  let start ← get
  let word ← token
  let first ← declarator g true
  let rest ← moreDeclarators g true
  let ending ← semicolon
  enclose start (declarationKind start.next.text) (word :: first :: rest ++ ending)

/-- A declaration of a function, `before` being the words already read. -/
def functionDeclaration (g : Grammar) (start : Reader) (before : List Node) (needsName : Bool) :
    Parse Node :=
  functionTail g start before .functionDeclaration .generatorDeclaration needsName

/-- A declaration of a class. -/
def classDeclaration (g : Grammar) : Parse Node := do
  let start ← get
  classAfter g start (← decorators g) .classDeclaration

/-- Whether an asynchronous function comes next. -/
def atAsyncFunction : Parse Bool := do
  if ← atWord "async" then
    foresee (do let _ ← token; return (← peek, ← afterLineBreak)) fun (l, broken) =>
      l.isWord "function" && !broken
  else return false

/-- A declaration of a function, a class or variables, if one comes next. -/
def declared? (g : Grammar) (needsName : Bool) : Parse (Option Node) := do
  let start ← get
  if ← atWord "function" then return some (← functionDeclaration g start [] needsName)
  else if ← atAsyncFunction then
    let word ← token
    return some (← functionDeclaration g start [word] needsName)
  else if (← atWord "class") || (← atSymbol "@") then return some (← classDeclaration g)
  else return none

/-! ### Branches and loops -/

/-- A choice between statements. -/
def ifStatement (g : Grammar) : Parse Node := do
  let start ← get
  let word ← keyword "if"
  let test ← condition g
  let consequence ← g .statement
  let between ← get
  let alternative ← if ← atWord "else" then do
      let other ← token
      let inner ← g .statement
      pure [(← enclose between .elseClause [other, inner]).inRole .alternative]
    else pure []
  enclose start .ifStatement (word :: test :: consequence.inRole .consequence :: alternative)

/-- What follows the target in the head of a loop over a collection. -/
def collectionTail (g : Grammar) (start : Reader) (before : List Node) : Parse Node := do
  let overKeys ← atWord "in"
  ensure (overKeys || (← atWord "of"))
  let word ← token
  let collection ← if overKeys then g (.expression true) else g (.assignment true)
  let closing ← symbol ")"
  let body ← g .statement
  enclose start .forInStatement
    (before ++ [word.inRole .operator, collection.inRole .right, closing, body.inRole .body])

/-- What follows the first part in the head of a counting loop. -/
def countingTail (g : Grammar) (start : Reader) (before : List Node) : Parse Node := do
  let first ← symbol ";"
  let test ← if ← atSymbol ";" then pure [] else pure [← g (.expression true)]
  let second ← symbol ";"
  let step ← if ← atSymbol ")" then pure [] else pure [← g (.expression true)]
  let closing ← symbol ")"
  let body ← g .statement
  enclose start .forStatement
    (before ++ first :: test ++ second :: step ++ [closing, body.inRole .body])

/-- Loops with `for`. -/
def forStatement (g : Grammar) : Parse Node := do
  let start ← get
  let word ← keyword "for"
  let waiting ← keyword? "await"
  let opening ← symbol "("
  let head := word :: waiting ++ [opening]
  if ← atSymbol ";" then countingTail g start head
  else if ← atDeclaration then
    -- only what follows the first name tells the two kinds of loops apart
    let inner ← get
    let first ← token
    let declared ← declarator g false
    if (← atWord "in") || (← atWord "of") then
      collectionTail g start (head ++ first :: declared.children)
    else
      let rest ← moreDeclarators g false
      let whole ← enclose inner (declarationKind inner.next.text) (first :: declared :: rest)
      countingTail g start (head ++ [whole])
  else
    let first ← g (.expression false)
    if (← atWord "in") || (← atWord "of") then
      ensure first.isAssignable
      let target ← first.toTarget?
      collectionTail g start (head ++ [target.inRole .left])
    else countingTail g start (head ++ [first])

/-- A loop with the test in front. -/
def whileStatement (g : Grammar) : Parse Node := do
  let start ← get
  let word ← keyword "while"
  let test ← condition g
  let body ← g .statement
  enclose start .whileStatement [word, test, body.inRole .body]

/-- A loop with the test behind. -/
def doStatement (g : Grammar) : Parse Node := do
  let start ← get
  let word ← keyword "do"
  let body ← g .statement
  let again ← keyword "while"
  let test ← condition g
  let ending ← symbol? ";"
  enclose start .doStatement (word :: body.inRole .body :: again :: test :: ending)

/-- A choice between statements by an object's scope. -/
def withStatement (g : Grammar) : Parse Node := do
  let start ← get
  let word ← keyword "with"
  let scope ← condition g
  let body ← g .statement
  enclose start .withStatement [word, scope, body.inRole .body]

/-- One case of a `switch`. -/
def switchCase (g : Grammar) : Parse Node := do
  let start ← get
  let isDefault ← atWord "default"
  ensure (isDefault || (← atWord "case"))
  let word ← token
  let test ← if isDefault then pure [] else pure [(← g (.expression true)).inRole .value]
  let colon ← symbol ":"
  let body ← manyUntil (fun l => l.isSymbol "\x7d" || l.isWord "case" || l.isWord "default") do
    return [← g .statement]
  enclose start (if isDefault then .switchDefault else .switchCase) (word :: test ++ colon :: body)

/-- A choice among cases. -/
def switchStatement (g : Grammar) : Parse Node := do
  let start ← get
  let word ← keyword "switch"
  let value ← condition g
  let inner ← get
  let opening ← symbol "\x7b"
  let cases ← manyUntil (·.isSymbol "\x7d") do return [← switchCase g]
  let closing ← symbol "\x7d"
  let body ← enclose inner .switchBody (opening :: cases ++ [closing])
  enclose start .switchStatement [word, value, body.inRole .body]

/-! ### Jumps and exceptions -/

/-- A block guarded by handlers, of which there is at least one. -/
def tryStatement (g : Grammar) : Parse Node := do
  let start ← get
  let word ← keyword "try"
  let body ← g .block
  let inner ← get
  let handler ← if ← atWord "catch" then do
      let caught ← token
      let bound ← if ← atSymbol "(" then do
          let opening ← token
          let target ← bindingTarget g
          let closing ← symbol ")"
          pure [opening, target.inRole .parameter, closing]
        else pure []
      let handling ← g .block
      pure [← enclose inner .catchClause (caught :: bound ++ [handling.inRole .body])]
    else pure []
  let after ← get
  let finalizer ← if ← atWord "finally" then do
      let last ← token
      let cleaning ← g .block
      pure [← enclose after .finallyClause [last, cleaning.inRole .body]]
    else pure []
  ensure (!handler.isEmpty || !finalizer.isEmpty)
  enclose start .tryStatement (word :: body.inRole .body :: handler ++ finalizer)

/-- `return` with or without a value. -/
def returnStatement (g : Grammar) : Parse Node := do
  let start ← get
  let word ← keyword "return"
  let value ← if ← endsHere then pure [] else pure [← g (.expression true)]
  let ending ← semicolon
  enclose start .returnStatement (word :: value ++ ending)

/-- `throw` with its value. -/
def throwStatement (g : Grammar) : Parse Node := do
  let start ← get
  let word ← keyword "throw"
  let value ← g (.expression true)
  let ending ← semicolon
  enclose start .throwStatement (word :: value :: ending)

/-- `break` and `continue`, with or without a label. -/
def jumpStatement (kind : Kind) : Parse Node := do
  let start ← get
  let word ← token
  let label ← if isName (← peek) && !(← afterLineBreak) then
      pure [(← leaf .statementIdentifier).inRole .label] else pure []
  let ending ← semicolon
  enclose start kind (word :: label ++ ending)

/-- A statement that only pauses. -/
def debuggerStatement : Parse Node := do
  let start ← get
  let word ← keyword "debugger"
  let ending ← semicolon
  enclose start .debuggerStatement (word :: ending)

/-! ### Modules -/

/-- The name of something imported or exported: any word, or a string. -/
def moduleName : Parse Node := do
  match (← peek).form with
  | .word => leaf .identifier
  | .string => leaf .string
  | _ => failure

/-- One name in the braces of an import or export, perhaps renamed. -/
def specifier (kind : Kind) : Parse Node := do
  let start ← get
  let inner ← moduleName
  if ← atWord "as" then
    let word ← token
    let renamed ← moduleName
    enclose start kind [inner.inRole .name, word, renamed.inRole .label]
  else enclose start kind [inner.inRole .name]

/-- Names in braces. -/
def specifiers (kind inner : Kind) : Parse Node := do
  let start ← get
  let opening ← symbol "\x7b"
  let items ← separated "\x7d" (specifier inner)
  let closing ← symbol "\x7d"
  enclose start kind (opening :: items ++ [closing])

/-- `from` and the module's name. -/
def fromClause : Parse (List Node) := do
  let word ← keyword "from"
  let source ← stringLiteral
  return [word, source.inRole .source]

/-- `with` and the attributes of an import. -/
def importAttribute (g : Grammar) : Parse (List Node) := do
  let start ← get
  if (← atWord "with") || ((← atWord "assert") && !(← afterLineBreak)) then
    let word ← token
    let attributes ← objectLiteral g
    return [← enclose start .importAttribute [word, attributes]]
  else return []

/-- `* as` and a name. -/
def namespaceImport : Parse Node := do
  let start ← get
  let star ← symbol "*"
  let word ← keyword "as"
  let inner ← name
  enclose start .namespaceImport [star, word, inner]

/-- The names or the namespace of an import. -/
def importedNames : Parse Node := do
  if ← atSymbol "*" then namespaceImport else specifiers .namedImports .importSpecifier

/-- What an import brings in. -/
def importClause : Parse Node := do
  let start ← get
  if isName (← peek) then
    let first ← leaf .identifier
    if ← atSymbol "," then
      let comma ← token
      let rest ← importedNames
      enclose start .importClause [first, comma, rest]
    else enclose start .importClause [first]
  else
    let inner ← importedNames
    enclose start .importClause [inner]

/-- An import. -/
def importStatement (g : Grammar) : Parse Node := do
  let start ← get
  let word ← keyword "import"
  let clause ← if (← peek).form == .string then pure [(← leaf .string).inRole .source]
    else do
      let clause ← importClause
      pure (clause :: (← fromClause))
  let attributes ← importAttribute g
  let ending ← semicolon
  enclose start .importStatement (word :: clause ++ attributes ++ ending)

/-- What stands after `export default`. -/
def defaultExport (g : Grammar) : Parse (List Node) := do
  let word ← keyword "default"
  match ← declared? g false with
  | some node => return [word, node]
  | none =>
      let value ← g (.assignment true)
      return word :: value.inRole .value :: (← semicolon)

/-- Everything of a module that is exported. -/
def exportAll (g : Grammar) : Parse (List Node) := do
  let start ← get
  let star ← symbol "*"
  let all ← if ← atWord "as" then do
      let word ← token
      let renamed ← moduleName
      pure [← enclose start .namespaceExport [star, word, renamed]]
    else pure [star]
  let source ← fromClause
  let attributes ← importAttribute g
  return all ++ source ++ attributes ++ (← semicolon)

/-- An export. -/
def exportStatement (g : Grammar) : Parse Node := do
  let start ← get
  let word ← keyword "export"
  let tail ← if ← atSymbol "*" then exportAll g
    else if ← atSymbol "\x7b" then do
      let clause ← specifiers .exportClause .exportSpecifier
      let source ← if ← atWord "from" then do
          let source ← fromClause
          pure (source ++ (← importAttribute g))
        else pure []
      pure (clause :: source ++ (← semicolon))
    else if ← atWord "default" then defaultExport g
    else if ← atDeclaration then pure [← declaration g]
    else
      match ← declared? g true with
      | some node => pure [node]
      | none => failure
  enclose start .exportStatement (word :: tail)

/-! ### Any statement -/

/-- An expression on its own. -/
def expressionStatement (g : Grammar) : Parse Node := do
  let start ← get
  let inner ← g (.expression true)
  let ending ← semicolon
  enclose start .expressionStatement (inner :: ending)

/-- A statement under a label. -/
def labeledStatement (g : Grammar) : Parse Node := do
  let start ← get
  let label ← leaf .statementIdentifier
  let colon ← symbol ":"
  let body ← g .statement
  enclose start .labeledStatement [label.inRole .label, colon, body.inRole .body]

/-- A statement that no word announces. -/
def unannounced (g : Grammar) : Parse Node := do
  if ← atDeclaration then declaration g
  else
    match ← declared? g true with
    | some node => return node
    | none =>
        if isName (← peek) && (← foresee (do let _ ← token; peek) (·.isSymbol ":")) then
          labeledStatement g
        else expressionStatement g

/-- A statement. -/
def statement (g : Grammar) : Parse Node := do
  let lexeme ← peek
  if lexeme.isSymbol "\x7b" then g .block
  else if lexeme.isSymbol ";" then leaf .emptyStatement
  else if lexeme.form == .word then
    match lexeme.text with
    | "if" => ifStatement g
    | "for" => forStatement g
    | "while" => whileStatement g
    | "do" => doStatement g
    | "switch" => switchStatement g
    | "try" => tryStatement g
    | "with" => withStatement g
    | "return" => returnStatement g
    | "throw" => throwStatement g
    | "break" => jumpStatement .breakStatement
    | "continue" => jumpStatement .continueStatement
    | "debugger" => debuggerStatement
    | "export" => exportStatement g
    | "import" =>
        -- a call or a property of the module is an expression
        if ← foresee (do let _ ← token; peek) fun l => l.isSymbol "(" || l.isSymbol "." then
          expressionStatement g
        else importStatement g
    | _ => unannounced g
  else unannounced g

/-- A whole script: an interpreter line, then statements to the end of the text. -/
def program (g : Grammar) : Parse Node := do
  let start ← get
  let line ← match start.rest with
    | '#' :: '!' :: cs => do
        let width := runLength (· != '\n') cs + 2
        pure [← leafOfWidth .hashBang width]
    | _ => pure []
  let body ← manyUntil (·.form == .finish) do return [← g .statement]
  enclose start .program (line ++ body)

end SchemaScope.Script.Statement
