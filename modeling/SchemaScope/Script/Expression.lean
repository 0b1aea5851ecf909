/-
**Expressions of a script.**

Each production of this module reads one form of expression, and takes the grammar for the forms
inside it.  A name or a list in parentheses before an arrow is read as it stands and becomes a
parameter list when the arrow is met, so no production ever goes back.

Main definitions:

* `Expression.primary` — literals, names, functions, parentheses;
* `Expression.chained` — member access, subscripts and calls after an expression;
* `Expression.unary`, `Expression.binary`, `Expression.assignment` — operators by strength;
* `Expression.objectMember`, `Expression.propertyName` — the inside of object literals;
* `Expression.classTail` — the heritage and body of a class.
-/

import SchemaScope.Script.Reader
import SchemaScope.Script.Target

set_option autoImplicit false

namespace SchemaScope.Script.Expression

open Parse

/-- The words that cannot be used as a name. -/
def reservedWords : List String :=
  ["await", "break", "case", "catch", "class", "const", "continue", "debugger", "default",
    "delete", "do", "else", "enum", "export", "extends", "false", "finally", "for", "function",
    "if", "import", "in", "instanceof", "new", "null", "return", "super", "switch", "this",
    "throw", "true", "try", "typeof", "var", "void", "while", "with", "yield"]

/-- Whether a lexeme is a word that can be used as a name. -/
def isName (l : Lexeme) : Bool := l.form == .word && !reservedWords.contains l.text

/-- Reads a name. -/
def name : Parse Node := do
  ensure (isName (← peek))
  leaf .identifier

/-! ### Lists -/

/-- An expression, or one spread over the list. -/
def element (g : Grammar) : Parse Node := do
  let start ← get
  if ← atSymbol "..." then
    let dots ← token
    let inner ← g (.assignment true)
    enclose start .spread [dots, inner]
  else g (.assignment true)

/-- An array literal. -/
def arrayLiteral (g : Grammar) : Parse Node := do
  let start ← get
  enclose start .array (← commaList "[" "]" (element g))

/-- The arguments of a call. -/
def callArguments (g : Grammar) : Parse Node := do
  let start ← get
  let node ← enclose start .arguments (← commaList "(" ")" (element g))
  return node.inRole .arguments

/-- A parameter list. -/
def parameters (g : Grammar) : Parse Node := do
  let start ← get
  let opening ← symbol "("
  let items ← separated ")" (element g)
  let closing ← symbol ")"
  let node ← enclose start .formalParameters (opening :: items ++ [closing])
  node.toParameters?

/-! ### Functions -/

/-- The body of a function. -/
def functionBody (g : Grammar) : Parse Node := do
  return (← g .block).inRole .body

/-- A parameter list and a body. -/
def signatureAndBody (g : Grammar) : Parse (List Node) := do
  let params ← g .parameters
  let body ← functionBody g
  return [params.inRole .parameters, body]

/-- What follows the word `function`: an optional star, a name, parameters and body.  `before` are
the children read so far, and `start` is where the function began.  Only a declaration needs a
name. -/
def functionTail (g : Grammar) (start : Reader) (before : List Node) (plain generator : Kind)
    (needsName : Bool) : Parse Node := do
  let word ← keyword "function"
  let star ← symbol? "*"
  let named ← if isName (← peek) || (← atWord "yield") || (← atWord "await") then
      pure [← leaf .identifier] else pure []
  ensure (!needsName || !named.isEmpty)
  let tail ← signatureAndBody g
  let kind := if star.isEmpty then plain else generator
  enclose start kind (before ++ word :: star ++ named ++ tail)

/-- What follows the parameters of an arrow function. -/
def arrowTail (g : Grammar) (start : Reader) (before : List Node) : Parse Node := do
  let arrow ← symbol "=>"
  let body ← if ← atSymbol "\x7b" then g .block else g (.assignment true)
  enclose start .arrowFunction (before ++ [arrow, body.inRole .body])

/-- An expression in parentheses, or the parameters of an arrow function with what follows. -/
def parenthesized (g : Grammar) : Parse Node := do
  let start ← get
  let opening ← symbol "("
  let inner ← get
  let items ← separated ")" (element g)
  let contents ← if items.length ≤ 1 then pure items else pure [← enclose inner .sequence items]
  let closing ← symbol ")"
  if ← atSymbol "=>" then
    let list ← enclose start .formalParameters (opening :: items ++ [closing])
    let params ← list.toParameters?
    arrowTail g start [params.inRole .parameters]
  else
    ensure (items.getLast?.any fun n => n.kind != .token ",")
    ensure (items.all fun n => n.kind != .spread)
    enclose start .parenthesized (opening :: contents ++ [closing])

/-! ### Templates -/

/-- One substitution of a template, or its characters up to the next one. -/
def templatePart (g : Grammar) : Parse (Option Node) := do
  let start ← get
  let closing := '\x7d'
  match start.gap with
  | '$' :: '\x7b' :: after =>
      let opened := Reader.settle start.comments (start.last.advanceText ['$', '\x7b']) after
      set opened
      let inner ← g (.expression true)
      let ended ← get
      match ended.rest with
      | c :: cs =>
          ensure (c == closing)
          -- after the brace the text of the template goes on, blanks included
          let stop := ended.mark.advance c
          set { ended with last := stop, gap := cs }
          let width := stop.count - start.last.count
          let text := String.ofList (start.gap.take width)
          return some ⟨.templateSubstitution, none, start.last.upTo stop, text, [inner]⟩
      | [] => failure
  | _ => return none

/-- A template with its substitutions.  Between its parts, blanks and comment marks are ordinary
characters, so the reader settles only after the closing mark. -/
def template (g : Grammar) : Parse Node := do
  let start ← get
  match start.rest with
  | c :: cs =>
      set { start with last := start.mark.advance c, gap := cs }
      let parts ← iterate (fun (parts : List Node) => do
        let r ← get
        match templateChunk 0 r.gap with
        | none => failure
        | some width =>
            set { r with last := r.last.advanceText (r.gap.take width), gap := r.gap.drop width }
            match ← templatePart g with
            | some part => return some (part :: parts)
            | none => return none) []
      let r ← get
      -- the closing mark, after which blanks and comments are passed again
      match r.gap with
      | quote :: after =>
          set (Reader.settle r.comments (r.last.advance quote) after)
          enclose start .template parts.reverse
      | [] => failure
  | [] => failure

/-! ### Object literals -/

/-- The name of a member: any word, a private name, a string, a number or a computed name. -/
def propertyName (g : Grammar) : Parse Node := do
  let start ← get
  match start.next.form with
  | .word => leaf .propertyIdentifier
  | .privateName => leaf .privateIdentifier
  | .string => leaf .string
  | .number => leaf .number
  | _ =>
      let opening ← symbol "["
      let inner ← g (.assignment true)
      let closing ← symbol "]"
      enclose start .computedName [opening, inner, closing]

/-- Whether a lexeme can open the name of a member. -/
def opensPropertyName (l : Lexeme) : Bool :=
  l.form == .word || l.form == .privateName || l.form == .string || l.form == .number ||
    l.isSymbol "["

/-- The words and marks before the name of a method: `static`, `async`, `get`, `set` and a star.  A
word counts only if a name follows it, and `static` only where the member may be static. -/
def methodMarks (mayBeStatic : Bool) : Parse (List Node) := do
  let marks ← iterate (fun (marks : List Node) => do
    let lexeme ← peek
    if lexeme.isSymbol "*" then return some ((← token) :: marks)
    let isMark := lexeme.isWord "async" || lexeme.isWord "get" || lexeme.isWord "set" ||
      (mayBeStatic && lexeme.isWord "static")
    if isMark && (← foresee (do let _ ← token; peek)
        fun l => opensPropertyName l || l.isSymbol "*") then
      return some ((← token) :: marks)
    return none) []
  return marks.reverse

/-- A member of an object literal. -/
def objectMember (g : Grammar) : Parse Node := do
  let start ← get
  if ← atSymbol "..." then return ← element g
  -- `get`, `async` and the like are marks only before another name
  let marks ← methodMarks false
  let shorthand := isName (← peek)
  let key ← g .propertyName
  let key := key.inRole .key
  if ← atSymbol "(" then
    let tail ← signatureAndBody g
    enclose start .method (marks ++ key.inRole .name :: tail)
  else
    ensure marks.isEmpty
    if ← atSymbol ":" then
      let colon ← token
      let value ← g (.assignment true)
      enclose start .pair [key, colon, value.inRole .value]
    else
      ensure shorthand
      let named := { key with kind := .shorthandProperty, role := none }
      -- a default is not a member yet: the object turns out to be a pattern later
      if ← atSymbol "=" then
        let equals ← token
        let value ← g (.assignment true)
        enclose start .shorthandDefault
          [{ named with kind := .shorthandPattern, role := some .left }, equals,
            value.inRole .right]
      else return named

/-- An object literal. -/
def objectLiteral (g : Grammar) : Parse Node := do
  let start ← get
  enclose start .object (← commaList "\x7b" "\x7d" (objectMember g))

/-! ### Classes -/

/-- Decorators before a class or a member. -/
def decorators (g : Grammar) : Parse (List Node) :=
  manyUntil (fun l => !l.isSymbol "@") do
    let start ← get
    let sign ← token
    let inner ← g .chained
    return [← enclose start .decorator [sign, inner]]

/-- Whether a missing semicolon may be supplied here. -/
def mayEnd : Parse Bool := do
  let r ← get
  return r.lineBreak || r.next.isSymbol "\x7d" || r.next.form == .finish

/-- A semicolon, or a place where it may be left out. -/
def semicolon : Parse (List Node) := do
  if ← atSymbol ";" then return [← token]
  ensure (← mayEnd)
  return []

/-- A member of a class. -/
def classMember (g : Grammar) : Parse (List Node) := do
  if ← atSymbol ";" then return [← token]
  let start ← get
  let decorated ← decorators g
  if (← atWord "static") && (← foresee (do let _ ← token; peek) (·.isSymbol "\x7b")) then
    let word ← token
    let body ← g .block
    return [← enclose start .staticBlock [word, body.inRole .body]]
  let marks ← methodMarks true
  let key ← g .propertyName
  if ← atSymbol "(" then
    let tail ← signatureAndBody g
    return [← enclose start .method (decorated ++ marks ++ key.inRole .name :: tail)]
  else
    let value ← if ← atSymbol "=" then do
        let equals ← token
        let value ← g (.assignment true)
        pure [equals, value.inRole .value]
      else pure []
    let member ← enclose start .field (decorated ++ marks ++ key.inRole .property :: value)
    return member :: (← semicolon)

/-- The heritage and the body of a class.  The node covers both, and the caller takes its
children. -/
def classTail (g : Grammar) : Parse Node := do
  let start ← get
  let heritage ← if ← atWord "extends" then do
      let word ← token
      let parent ← g .chained
      pure [← enclose start .classHeritage [word, parent]]
    else pure []
  let inner ← get
  let opening ← symbol "\x7b"
  let members ← manyUntil (·.isSymbol "\x7d") (classMember g)
  let closing ← symbol "\x7d"
  let body ← enclose inner .classBody (opening :: members ++ [closing])
  enclose start .classBody (heritage ++ [body.inRole .body])

/-- What follows the word `class`. -/
def classAfter (g : Grammar) (start : Reader) (before : List Node) (kind : Kind) : Parse Node := do
  let word ← keyword "class"
  let named ← if isName (← peek) then pure [← leaf .identifier] else pure []
  let tail ← g .classTail
  enclose start kind (before ++ word :: named ++ tail.children)

/-! ### Primary expressions -/

/-- A name, or the single parameter of an arrow function with what follows. -/
def nameOrArrow (g : Grammar) : Parse Node := do
  let start ← get
  let n ← name
  if ← atSymbol "=>" then arrowTail g start [n.inRole .parameter] else return n

/-- What the word `async` opens: a function, an arrow function, or a name. -/
def asyncOrName (g : Grammar) : Parse Node := do
  let start ← get
  let word ← name
  if (← atWord "function") && !(← afterLineBreak) then
    functionTail g start [{ word with kind := .token "async" }] .functionExpression
      .generatorFunction false
  else if isName (← peek) && !(← afterLineBreak) &&
      (← foresee (do let _ ← token; peek) (·.isSymbol "=>")) then
    let parameter ← name
    arrowTail g start [{ word with kind := .token "async" }, parameter.inRole .parameter]
  else if ← atSymbol "=>" then arrowTail g start [word.inRole .parameter]
  else if ← atSymbol "(" then
    -- a call of something named `async`, unless an arrow follows
    let list ← callArguments g
    if ← atSymbol "=>" then
      let params ← list.toParameters?
      arrowTail g start [{ word with kind := .token "async" }, params.inRole .parameters]
    else enclose start .call [word.inRole .callee, list]
  else return word

/-- What the word `import` opens inside an expression: a call, or the module's own properties. -/
def importExpression : Parse Node := do
  let start ← get
  let word ← leaf .importKeyword
  if ← atSymbol "." then
    let dot ← token
    let property ← keyword "meta"
    enclose start .metaProperty [{ word with kind := .token "import" }, dot, property]
  else
    ensure (← atSymbol "(")
    return word

/-- What a word opens. -/
def wordExpression (g : Grammar) (word : String) : Parse Node := do
  match word with
  | "this" => leaf .this
  | "super" => leaf .super
  | "null" => leaf .nullLiteral
  | "true" => leaf .trueLiteral
  | "false" => leaf .falseLiteral
  | "undefined" =>
      let n ← nameOrArrow g
      if n.kind == .identifier then return { n with kind := .undefined } else return n
  | "function" => functionTail g (← get) [] .functionExpression .generatorFunction false
  | "class" => classAfter g (← get) [] .classExpression
  | "import" => importExpression
  | "async" => asyncOrName g
  | _ => nameOrArrow g

/-- A regular expression. -/
def regexLiteral : Parse Node := do
  match scanRegex (← get).rest with
  | some width => leafOfWidth .regex width
  | none => failure

/-- The smallest expressions. -/
def primary (g : Grammar) : Parse Node := do
  let start ← get
  let lexeme := start.next
  match lexeme.form with
  | .number => leaf .number
  | .string => leaf .string
  | .word => wordExpression g lexeme.text
  | .privateName =>
      -- on its own a private name stands only before `in`
      let n ← leaf .privateIdentifier
      ensure (← atWord "in")
      return n
  | .symbol =>
      match lexeme.text with
      | "(" => parenthesized g
      | "[" => arrayLiteral g
      | "\x7b" => objectLiteral g
      | "`" => template g
      | "/" => regexLiteral
      | "/=" => regexLiteral
      | "@" => classAfter g start (← decorators g) .classExpression
      | _ => failure
  | _ => failure

/-! ### Member access, subscripts and calls -/

/-- The property after a dot. -/
def property : Parse Node := do
  match (← peek).form with
  | .word => return (← leaf .propertyIdentifier).inRole .property
  | .privateName => return (← leaf .privateIdentifier).inRole .property
  | _ => failure

/-- A subscript after an expression. -/
def subscriptTail (g : Grammar) (start : Reader) (before : List Node) : Parse Node := do
  let opening ← symbol "["
  let index ← g (.expression true)
  let closing ← symbol "]"
  enclose start .subscript (before ++ [opening, index.inRole .index, closing])

/-- One more access, subscript or call after an expression, if there is one.  Calls and optional
steps are left alone where `calls` is off. -/
def postfixStep (g : Grammar) (start : Reader) (calls : Bool) (base : Node) :
    Parse (Option Node) := do
  let lexeme ← peek
  if lexeme.isSymbol "." then
    let dot ← token
    let last ← property
    return some (← enclose start .member [base.inRole .object, dot, last])
  else if lexeme.isSymbol "[" then
    return some (← subscriptTail g start [base.inRole .object])
  else if lexeme.isSymbol "`" then
    let body ← template g
    return some (← enclose start .call [base.inRole .callee, body.inRole .arguments])
  else if calls && lexeme.isSymbol "(" then
    let list ← callArguments g
    return some (← enclose start .call [base.inRole .callee, list])
  else if calls && lexeme.isSymbol "?." then
    let chain ← token
    if ← atSymbol "(" then
      let list ← callArguments g
      return some (← enclose start .call [base.inRole .callee, chain, list])
    else if ← atSymbol "[" then
      return some (← subscriptTail g start [base.inRole .object, chain])
    else
      let last ← property
      return some (← enclose start .member [base.inRole .object, chain, last])
  else return none

/-- All accesses, subscripts and calls after an expression. -/
def postfixed (g : Grammar) (start : Reader) (calls : Bool) (base : Node) : Parse Node :=
  iterate (postfixStep g start calls) base

/-- What the word `new` opens: a construction, or the property `new.target`. -/
def newExpression (g : Grammar) : Parse Node := do
  let start ← get
  let word ← keyword "new"
  if ← atSymbol "." then
    let dot ← token
    let target ← keyword "target"
    enclose start .metaProperty [word, dot, target]
  else
    let made ← g .constructed
    let list ← if ← atSymbol "(" then pure [← callArguments g] else pure []
    enclose start .newExpression (word :: made.inRole .constructed :: list)

/-- An expression that an access can follow, with everything that follows it; calls are set aside
where `calls` is off, as after `new`. -/
def chained (g : Grammar) (calls : Bool) : Parse Node := do
  let start ← get
  let base ← if ← atWord "new" then newExpression g else primary g
  postfixed g start calls base

/-! ### Operators -/

/-- The words and marks that stand before their operand. -/
def isUnaryOperator (l : Lexeme) : Bool :=
  ["!", "~", "-", "+"].any l.isSymbol || ["typeof", "void", "delete"].any l.isWord

/-- Operators before one operand, and the updates `++` and `--` on either side of it. -/
def unary (g : Grammar) : Parse Node := do
  let start ← get
  let lexeme := start.next
  if isUnaryOperator lexeme then
    let operator ← token
    let operand ← g .unary
    enclose start .unary [operator.inRole .operator, operand.inRole .argument]
  else if lexeme.isSymbol "++" || lexeme.isSymbol "--" then
    let operator ← token
    let operand ← g .unary
    enclose start .update [operator.inRole .operator, operand.inRole .argument]
  else if lexeme.isWord "await" then
    let word ← token
    let operand ← g .unary
    enclose start .await [word, operand]
  else
    let operand ← chained g true
    -- on a new line an update belongs to what follows
    if ((← atSymbol "++") || (← atSymbol "--")) && !(← afterLineBreak) then
      let operator ← token
      enclose start .update [operand.inRole .argument, operator.inRole .operator]
    else return operand

/-- The strength of an operator between two operands: a stronger one binds its operands first. -/
def strength (allowIn : Bool) (l : Lexeme) : Option Nat :=
  match l.form with
  | .symbol =>
      match l.text with
      | "??" => some 1
      | "||" => some 2
      | "&&" => some 3
      | "|" => some 4
      | "^" => some 5
      | "&" => some 6
      | "==" | "!=" | "===" | "!==" => some 7
      | "<" | ">" | "<=" | ">=" => some 8
      | "<<" | ">>" | ">>>" => some 9
      | "+" | "-" => some 10
      | "*" | "/" | "%" => some 11
      | "**" => some 12
      | _ => none
  | .word =>
      match l.text with
      | "instanceof" => some 8
      | "in" => if allowIn then some 8 else none
      | _ => none
  | _ => none

/-- Operands joined by operators of at least the given strength, from left to right; a power joins
from right to left. -/
def binary (g : Grammar) (allowIn : Bool) (level : Nat) : Parse Node := do
  let start ← get
  let first ← g .unary
  iterate (fun left => do
    match strength allowIn (← peek) with
    | none => return none
    | some n =>
        if n < level then return none
        let operator ← token
        -- the right operand binds more strongly, but for powers
        let right ← g (.binary allowIn (if n == 12 then n else n + 1))
        let node ← enclose start .binary
          [left.inRole .left, operator.inRole .operator, right.inRole .right]
        return some node) first

/-- Whether a lexeme ends an expression before it has begun. -/
def endsExpression (l : Lexeme) : Bool :=
  l.form == .finish || [")", "]", "\x7d", ",", ";", ":"].any l.isSymbol || l.isWord "in"

/-- What the word `yield` opens. -/
def yieldExpression (g : Grammar) (allowIn : Bool) : Parse Node := do
  let start ← get
  let word ← keyword "yield"
  if ← atSymbol "*" then
    let star ← token
    let value ← g (.assignment allowIn)
    enclose start .yield [word, star, value]
  else if endsExpression (← peek) || (← afterLineBreak) then enclose start .yield [word]
  else
    let value ← g (.assignment allowIn)
    enclose start .yield [word, value]

/-- The operators that update what stands left of them. -/
def updatingOperators : List String :=
  ["+=", "-=", "*=", "/=", "%=", "^=", "&=", "|=", ">>=", ">>>=", "<<=", "**=", "&&=", "||=", "??="]

/-- A choice between two expressions, if a question mark follows the condition. -/
def conditional (g : Grammar) (allowIn : Bool) : Parse Node := do
  let start ← get
  let condition ← g (.binary allowIn 1)
  if ← atSymbol "?" then
    let mark ← token
    let consequence ← g (.assignment true)
    let colon ← symbol ":"
    let alternative ← g (.assignment allowIn)
    enclose start .ternary [condition.inRole .condition, mark, consequence.inRole .consequence,
      colon, alternative.inRole .alternative]
  else return condition

/-- An expression without a comma at its top. -/
def assignment (g : Grammar) (allowIn : Bool) : Parse Node := do
  if ← atWord "yield" then return ← yieldExpression g allowIn
  let start ← get
  let left ← conditional g allowIn
  let lexeme ← peek
  if lexeme.isSymbol "=" then
    -- what was read as an expression is read again as a target
    ensure left.isAssignable
    let target ← left.toTarget?
    let equals ← token
    let right ← g (.assignment allowIn)
    enclose start .assignment [target.inRole .left, equals, right.inRole .right]
  else if updatingOperators.any lexeme.isSymbol then
    ensure left.isUpdatable
    let operator ← token
    let right ← g (.assignment allowIn)
    enclose start .augmentedAssignment
      [left.inRole .left, operator.inRole .operator, right.inRole .right]
  else return left

/-- An expression, or several with commas between them. -/
def sequence (g : Grammar) (allowIn : Bool) : Parse Node := do
  let start ← get
  let first ← g (.assignment allowIn)
  if ← atSymbol "," then
    let rest ← manyUntil (fun l => !l.isSymbol ",") do
      let comma ← token
      return [comma, ← g (.assignment allowIn)]
    enclose start .sequence (first :: rest)
  else return first

end SchemaScope.Script.Expression
