import IdentityLint.Syntax.Grammar.Element

/-!
Expressions.

Only calls, member accesses, identifiers, object literals, functions and parentheses have
forms of their own.  Operators of every precedence are read as one flat list of operands:
how `a + b * c` associates makes no difference to which nodes it contains or where they stand.
-/

namespace IdentityLint.Syntax.Grammar

open Parse Token

/-! ### Operands -/

/-- An expression in parentheses, behind the comments that precede it. -/
def parenthesized (g : Grammar) : Parse Node := do
  let s ← here
  punct "("
  let comments := (← peek trivia).comments.map fun c => Node.mk 0 .comment c []
  let e ← g.expression
  let t ← g.typed
  punct ")"
  close s .parenthesized (comments ++ e :: t)

/-- An array literal. -/
def arrayLiteral (g : Grammar) : Parse Node :=
  asOther do
    punct "["
    let es ← sepEnd (punct ",") <|
      (do let _ ← attempt (punct "..."); return [← g.assignment]) <|>
      (peek (punct ",") *> pure [])
    punct "]"
    return es

/-- A `new` expression: the constructor is an operand without calls. -/
def newExpression (g : Grammar) : Parse Node := do
  let s ← here
  keyword "new"
  (do
    punct "."
    keyword "target"
    close s .other []) <|>
  (do
    let cs ← here
    let first ← g.primary
    let constructed ← iterate (fun n =>
      (do
        punct "."
        let p ← word
        close cs (.member (some p)) [n]) <|>
      (do
        punct "."
        privateName
        close cs (.member none) [n]) <|>
      (do
        punct "["
        let i ← g.expression
        punct "]"
        close cs .other [n, i])) first
    let ts ← optionD [] (g.typeArguments <* peek (punct "("))
    let args ← optionD [] (do return [← g.arguments])
    close s .other (constructed :: ts ++ args))

/-- A dynamic import or the metadata of the module. -/
def importExpression (g : Grammar) : Parse Node :=
  g.importCall <|>
  asOther do
    keyword "import"
    punct "."
    keyword "meta"
    return []

/-- The words that denote values by themselves. -/
def valueWords : List String := ["this", "super", "null", "true", "false", "undefined"]

/-- A class with its decorators. -/
def decoratedClass (g : Grammar) : Parse Forest := do
  let ds ← many g.decorator
  let _ ← attempt (keyword "abstract" *> peek (keyword "class"))
  let c ← g.classTail
  return ds.flatten ++ c

/-- An operand that begins with a word. -/
def wordOperand (g : Grammar) : Parse Node := do
  match ← peekWord with
  | some "function" => g.functionLiteral
  | some "async" => g.functionLiteral <|> identifierOf plainName
  | some "class" => asOther g.classTail
  | some "new" => g.newExpression
  | some "import" => g.importExpression
  | some w =>
    if valueWords.contains w then asOther (word *> pure []) else identifierOf plainName
  | none => failure

/-- An operand without member accesses and calls. -/
def primaryExpression (g : Grammar) : Parse Node := do
  match ← ahead with
  | [] => failure
  | c :: _ =>
    if c == '(' then g.parenthesized
    else if c == '[' then g.arrayLiteral
    else if c == '{' then g.objectLiteral
    else if c == '"' || c == '\'' then asOther (stringLiteral *> pure [])
    else if c == '`' then asOther (template (do return [← g.expression]))
    else if c == '/' then asOther (regexLiteral *> pure [])
    else if c == '#' then asOther (privateName *> pure [])
    else if c == '@' then asOther g.decoratedClass
    else if c == '<' then (do require g.jsx; g.element)
    else asOther (numberLiteral *> pure []) <|> g.wordOperand

/-- What may follow the type arguments of an expression that is not called: anything that
cannot begin an operand. -/
def closesInstantiation : Parse Unit := do
  match ← ahead with
  | [] => pure ()
  | c :: _ =>
    require ((← newlineAhead) || ")],;:\x7d.?=&|".toList.contains c)

/-- An access or call that extends an operand beginning at `s`. -/
def suffix (g : Grammar) (s : Nat) (n : Node) : Parse Node := do
  match ← ahead with
  | '?' :: '.' :: d :: _ =>
    require !d.isDigit
    punct "?."
    (do
      let p ← word
      close s (.member (some p)) [n]) <|>
    (do
      privateName
      close s (.member none) [n]) <|>
    (do
      punct "["
      let i ← g.expression
      punct "]"
      close s .other [n, i]) <|>
    (do
      let ts ← optionD [] g.typeArguments
      let args ← g.arguments
      close s .call (n :: ts ++ [args]))
  | '.' :: _ =>
    punct "."
    (do
      let p ← word
      close s (.member (some p)) [n]) <|>
    (do
      privateName
      close s (.member none) [n])
  | '[' :: _ =>
    punct "["
    let i ← g.expression
    punct "]"
    close s .other [n, i]
  | '(' :: _ =>
    let args ← g.arguments
    close s .call [n, args]
  | '`' :: _ =>
    let t ← asOther (template (do return [← g.expression]))
    close s .call [n, t]
  | '!' :: rest =>
    require !(← newlineAhead)
    require (rest.head? != some '=')
    punct "!"
    close s .other [n]
  | '<' :: _ =>
    let ts ← g.typeArguments
    (do
      let args ← g.arguments
      close s .call (n :: ts ++ [args])) <|>
    (do
      require (← looksAt "`")
      let t ← asOther (template (do return [← g.expression]))
      close s .call (n :: ts ++ [t])) <|>
    (do
      closesInstantiation
      close s .other (n :: ts))
  | _ => failure

/-- An operand with its member accesses and calls. -/
def operandExpression (g : Grammar) : Parse Node := do
  let s ← here
  let first ← g.primaryExpression
  iterate (g.suffix s) first

/-! ### Operators -/

/-- The words that are prefix operators. -/
def prefixWords : List String := ["typeof", "void", "delete", "await"]

/-- A prefix operator; a type in angle brackets is one where elements are none. -/
def prefixOperator (g : Grammar) : Parse Forest :=
  (do let _ ← punctOf ["++", "--", "!", "~", "+", "-"]; return []) <|>
  (do
    let w ← word
    require (prefixWords.contains w)
    match ← ahead with
    | [] => failure
    | c :: _ => require (!"=.,;:?)]\x7d&|*%^>".toList.contains c)
    return []) <|>
  (do require !g.jsx; g.typeArguments)

/-- An operand with its prefix and postfix operators. -/
def unaryExpression (g : Grammar) : Parse Node := do
  let s ← here
  let ps ← many g.prefixOperator
  let e ← g.operandExpression
  let post ← attempt do
    require !(← newlineAhead)
    punct "++" <|> punct "--"
  if ps.isEmpty && !post then return e else close s .other (ps.flatten ++ [e])

/-- The operators that assign. -/
def assignmentOperators : List String :=
  [">>>=", "<<=", ">>=", "**=", "&&=", "||=", "??=", "+=", "-=", "*=", "/=", "%=", "&=", "|=",
    "^="]

/-- The operators between two operands, longer ones before their beginnings. -/
def binaryOperators : List String :=
  ["===", "!==", ">>>", "**", "<<", ">>", "<=", ">=", "==", "!=", "&&", "||", "??", "+", "-",
    "*", "/", "%", "<", ">", "&", "|", "^"]

/-- A binary operator with its right operand, or a type that the expression is taken at. -/
def binaryTail (g : Grammar) : Parse Forest :=
  (do
    let text ← ahead
    require (assignmentOperators.all fun s => !s.toList.isPrefixOf text)
    require (!"=>".toList.isPrefixOf text)
    let _ ← punctOf binaryOperators
    return [← g.unaryExpression]) <|>
  (do
    keyword "instanceof" <|> keyword "in"
    return [← g.unaryExpression]) <|>
  (do
    require !(← newlineAhead)
    keyword "as" <|> keyword "satisfies"
    (keyword "const" *> pure []) <|> g.type)

/-- Operands joined by binary operators. -/
def binaryExpression (g : Grammar) : Parse Node := do
  let s ← here
  let first ← g.unaryExpression
  let others ← many g.binaryTail
  if others.isEmpty then return first else close s .other (first :: others.flatten)

/-- The question mark of a conditional. -/
def question : Parse Unit := do
  match ← ahead with
  | '?' :: '?' :: _ => failure
  | '?' :: '.' :: c :: _ => require c.isDigit; punct "?"
  | '?' :: _ => punct "?"
  | _ => failure

/-- A conditional expression, or the operators that would be its condition. -/
def conditionalExpression (g : Grammar) : Parse Node := do
  let s ← here
  let e ← g.binaryExpression
  (do
    question
    let a ← g.branch
    punct ":"
    let b ← g.assignment
    close s .other [e, a, b]) <|> pure e

/-! ### Assignments and arrow functions -/

/-- An arrow function that began at `s`, from its arrow on.  Behind a body in braces the function
may be called or accessed like any operand; a body without braces reaches as far as it can. -/
def arrowFrom (g : Grammar) (s : Nat) (head : Forest) : Parse Node := do
  punct "=>"
  (do
    let body ← g.block
    iterate (g.suffix s) (← close s .function (head ++ body))) <|>
  (do
    let e ← g.assignment
    close s .function (head ++ [e]))

/-- An arrow function whose parameters stand in parentheses.  A result type behind the
parameters is taken for one only if `resultType` allows it. -/
def arrowWithParameters (g : Grammar) (resultType : Bool) : Parse Node := do
  let s ← here
  let _ ← attempt do
    keyword "async"
    require !(← newlineAhead)
    (peek (punct "(")) <|> (peek (punct "<"))
  let ts ← optionD [] g.typeParameters
  require (← looksAt "(")
  let follower := (← behindGroup)
  require ("=>".toList.isPrefixOf follower || (resultType && follower.head? == some ':'))
  let ps ← g.parameters
  let r ← g.typed
  g.arrowFrom s (ts ++ ps ++ r)

/-- An arrow function with a single parameter and no parentheses. -/
def arrowOfName (g : Grammar) : Parse Node := do
  let s ← here
  let _ ← attempt do
    keyword "async"
    require !(← newlineAhead)
    peek plainName
  let x ← variableName
  g.arrowFrom s x

/-- Does an assigning equals sign follow the bracket group at the next token? -/
def isAssignedGroup : Parse Bool := do
  match ← ahead with
  | c :: _ =>
    if c == '[' || c == '\x7b' then
      match ← behindGroup with
      | '=' :: '=' :: _ => return false
      | '=' :: '>' :: _ => return false
      | '=' :: _ => return true
      | _ => return false
    else return false
  | [] => return false

/-- An assignment that takes a value apart. -/
def patternAssignment (g : Grammar) : Parse Node := do
  require (← isAssignedGroup)
  asOther do
    let t ← g.target
    assign
    return t ++ [← g.assignment]

/-- What a generator yields.  The value begins on the line of the word. -/
def yieldExpression (g : Grammar) : Parse Node :=
  asOther do
    keyword "yield"
    optionD [] do
      require !(← newlineAhead)
      let _ ← attempt (punct "*")
      return [← g.assignment]

/-- A conditional expression, or an assignment to one operand. -/
def simpleAssignment (g : Grammar) : Parse Node := do
  let s ← here
  let e ← g.conditionalExpression
  (do
    assign <|> discard (punctOf assignmentOperators)
    let r ← g.assignment
    close s .other [e, r]) <|> pure e

/-- An expression without top-level commas that is no arrow function. -/
def plainAssignment (g : Grammar) : Parse Node :=
  g.yieldExpression <|> g.patternAssignment <|> g.simpleAssignment

/-- An expression without top-level commas, with the given readers of arrow functions whose
result type is written out.  Where elements are expressions, an opening angle bracket begins an
element if it can. -/
def assignmentWith (g : Grammar) (annotatedArrow : Parse Node) : Parse Node := do
  let arrow := g.arrowOfName <|> g.arrowWithParameters false <|> annotatedArrow
  if g.jsx && (← looksAt "<") then g.plainAssignment <|> arrow else arrow <|> g.plainAssignment

/-- An expression without top-level commas. -/
def assignmentExpression (g : Grammar) : Parse Node :=
  g.assignmentWith (g.arrowWithParameters true)

/-- The first branch of a conditional.  A colon behind parentheses ends the branch, unless it
introduces the result type of an arrow function that a further colon follows. -/
def branchExpression (g : Grammar) : Parse Node :=
  g.assignmentWith (g.arrowWithParameters true <* peek (punct ":"))

/-- An expression, commas included. -/
def commaExpression (g : Grammar) : Parse Node := do
  let s ← here
  let es ← sepBy1 (punct ",") g.assignment
  match es with
  | [e] => return e
  | _ => close s .other es

end IdentityLint.Syntax.Grammar
