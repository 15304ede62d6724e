import IdentityLint.Syntax.Grammar.Module

/-!
Statements and declarations.

Statements have no nodes of their own, imports and functions excepted.  Names of classes,
interfaces, type aliases and labels are no identifiers; names of variables, functions, enums and
namespaces are.
-/

namespace IdentityLint.Syntax.Grammar

open Parse Token

/-! ### Declarations -/

/-- One variable of a declaration. -/
def declarator (g : Grammar) : Parse Forest := do
  let bound ← g.binding
  let _ ← attempt (punct "!")
  let type ← g.typed
  let value ← g.initializer
  return bound ++ type ++ value

/-- The words that open a declaration of variables. -/
def variableWord : Parse Unit :=
  keyword "var" <|> keyword "const" <|>
  (do
    keyword "let"
    match ← ahead with
    | c :: _ => require (isNameStart c || c == '[' || c == '\x7b' || c == '\\')
    | [] => failure
    let w ← peekWord
    require (w != some "in" && w != some "instanceof"))

/-- A declaration of variables, without its end. -/
def variableList (g : Grammar) : Parse Forest := do
  variableWord
  let ds ← sepBy1 (punct ",") g.declarator
  return ds.flatten

/-- A function declaration, or the signature of one that is declared elsewhere. -/
def functionDeclaration (g : Grammar) : Parse Forest :=
  (do return [← g.functionLiteral]) <|> (g.functionHead <* semicolon)

/-- A member of an enumeration. -/
def enumMember (g : Grammar) : Parse Forest := do
  let k ← g.key
  let v ← g.initializer
  return k.2 ++ v

/-- An enumeration. -/
def enumDeclaration (g : Grammar) : Parse Forest := do
  let _ ← attempt (keyword "const")
  keyword "enum"
  let name ← identifierOf plainName
  punct "\x7b"
  let ms ← sepEnd (punct ",") g.enumMember
  punct "\x7d"
  return name :: ms

/-- A further name for a type. -/
def typeAlias (g : Grammar) : Parse Forest := do
  keyword "type"
  let _ ← word
  let ts ← optionD [] g.typeParameters
  assign
  let t ← g.type
  semicolon
  return ts ++ t

/-- An interface. -/
def interfaceDeclaration (g : Grammar) : Parse Forest := do
  keyword "interface"
  let _ ← word
  let ts ← optionD [] g.typeParameters
  let parents ← optionD [] do
    keyword "extends"
    return (← sepBy1 (punct ",") g.type).flatten
  let body ← g.objectType
  return ts ++ parents ++ body

/-- A namespace, or a module declared by its path. -/
def namespaceDeclaration (g : Grammar) : Parse Forest := do
  keyword "namespace" <|> keyword "module"
  (do
    let _ ← stringLiteral
    g.block <|> (semicolon *> pure [])) <|>
  (do
    require !(← newlineAhead)
    let s ← here
    let first ← identifierOf plainName
    let names ← pathNames
    let body ← g.block
    return nestedPath s first names ++ body)

/-- What may be declared, apart from what `declare` itself introduces. -/
def plainDeclaration (g : Grammar) : Parse Forest := do
  match ← peekWord with
  | some "var" => g.variableList <* semicolon
  | some "let" => g.variableList <* semicolon
  | some "const" => g.enumDeclaration <|> (g.variableList <* semicolon)
  | some "function" => g.functionDeclaration
  | some "async" => g.functionDeclaration
  | some "class" => g.classTail
  | some "abstract" => keyword "abstract" *> g.classTail
  | some "enum" => g.enumDeclaration
  | some "type" => g.typeAlias
  | some "interface" => g.interfaceDeclaration
  | some "namespace" => g.namespaceDeclaration
  | some "module" => g.namespaceDeclaration
  | some "import" => importAlias
  | some _ => failure
  | none =>
    require (← looksAt "@")
    g.decoratedClass

/-- A declaration. -/
def declaration (g : Grammar) : Parse Forest :=
  g.plainDeclaration <|>
  (do
    keyword "declare"
    g.plainDeclaration <|> (keyword "global" *> g.block))

/-! ### Statements -/

/-- An expression in the parentheses of a statement. -/
def condition (g : Grammar) : Parse Node := do
  punct "("
  let e ← g.expression
  punct ")"
  return e

/-- The header of a loop over the elements or keys of a value. -/
def eachHeader (g : Grammar) : Parse Forest := do
  let bound ←
    (do
      keyword "var" <|> keyword "const" <|> keyword "let"
      let b ← g.binding
      let t ← g.typed
      let d ← g.initializer
      return b ++ t ++ d) <|>
    g.target
  keyword "of" <|> keyword "in"
  let e ← g.expression
  return bound ++ [e]

/-- The header of a counting loop. -/
def countHeader (g : Grammar) : Parse Forest := do
  let part : Parse Forest := optionD [] (do return [← g.expression])
  let first ← g.variableList <|> part
  punct ";"
  let test ← part
  punct ";"
  let step ← part
  return first ++ test ++ step

/-- A loop with a header in parentheses. -/
def forStatement (g : Grammar) : Parse Forest := do
  keyword "for"
  let _ ← attempt (keyword "await")
  let header ←
    (punct "(" *> g.eachHeader <* punct ")") <|> (punct "(" *> g.countHeader <* punct ")")
  let body ← g.statement
  return header ++ body

/-- A conditional statement. -/
def ifStatement (g : Grammar) : Parse Forest := do
  keyword "if"
  let e ← g.condition
  let a ← g.statement
  let b ← optionD [] (keyword "else" *> g.statement)
  return e :: a ++ b

/-- A loop that tests before its body, or a body in the scope of an object. -/
def guardedStatement (g : Grammar) (first : String) : Parse Forest := do
  keyword first
  let e ← g.condition
  let body ← g.statement
  return e :: body

/-- A loop that tests behind its body. -/
def doStatement (g : Grammar) : Parse Forest := do
  keyword "do"
  let body ← g.statement
  keyword "while"
  let e ← g.condition
  let _ ← attempt semicolon
  return body ++ [e]

/-- A case of a switch. -/
def switchCase (g : Grammar) : Parse Forest := do
  let test ←
    (keyword "default" *> pure []) <|>
    (do
      keyword "case"
      return [← g.expression])
  punct ":"
  let body ← many g.statement
  return test ++ body.flatten

/-- A switch. -/
def switchStatement (g : Grammar) : Parse Forest := do
  keyword "switch"
  let e ← g.condition
  punct "\x7b"
  let cases ← many g.switchCase
  punct "\x7d"
  return e :: cases.flatten

/-- A block with handlers. -/
def tryStatement (g : Grammar) : Parse Forest := do
  keyword "try"
  let body ← g.block
  let handler ← optionD [] do
    keyword "catch"
    let bound ← optionD [] do
      punct "("
      let b ← g.binding
      let t ← g.typed
      punct ")"
      return b ++ t
    let handled ← g.block
    return bound ++ handled
  let final ← optionD [] (keyword "finally" *> g.block)
  return body ++ handler ++ final

/-- An expression as a statement. -/
def expressionStatement (g : Grammar) : Parse Forest := do
  let e ← g.expression
  semicolon
  return [e]

/-- A return.  Its value begins where the statement could not end. -/
def returnStatement (g : Grammar) : Parse Forest := do
  keyword "return"
  (semicolon *> pure []) <|> g.expressionStatement

/-- A throw. -/
def throwStatement (g : Grammar) : Parse Forest := do
  keyword "throw"
  g.expressionStatement

/-- A statement made of a word and possibly a label. -/
def jumpStatement (first : String) : Parse Forest := do
  keyword first
  let _ ← attempt do
    require !(← newlineAhead)
    plainName
  semicolon
  return []

/-- A statement with a label. -/
def labelledStatement (g : Grammar) : Parse Forest := do
  let _ ← plainName
  punct ":"
  g.statement

/-- An import or export, a declaration, or an expression, whichever the text allows. -/
def openStatement (g : Grammar) : Parse Forest :=
  g.labelledStatement <|> g.declaration <|> g.expressionStatement

/-- A statement that begins with a decorator. -/
def decoratedStatement (g : Grammar) : Parse Forest := do
  let ds ← many g.decorator
  let rest ← g.exportStatement g.declaration <|> g.decoratedClass
  return ds.flatten ++ rest

/-- A statement that begins with the word given. -/
def wordStatement (g : Grammar) : String → Parse Forest
  | "import" =>
    (do return [← g.importStatement]) <|> importAlias <|> g.expressionStatement
  | "export" => g.exportStatement g.declaration
  | "if" => g.ifStatement
  | "for" => g.forStatement
  | "while" => g.guardedStatement "while"
  | "with" => g.guardedStatement "with"
  | "do" => g.doStatement
  | "switch" => g.switchStatement
  | "try" => g.tryStatement
  | "return" => g.returnStatement
  | "throw" => g.throwStatement
  | "break" => jumpStatement "break"
  | "continue" => jumpStatement "continue"
  | "debugger" => keyword "debugger" *> semicolon *> pure []
  | _ => g.openStatement

/-- A statement or declaration. -/
def anyStatement (g : Grammar) : Parse Forest := do
  match ← ahead with
  | [] => failure
  | ';' :: _ => punct ";" *> pure []
  | '{' :: _ => g.block <|> g.expressionStatement
  | '@' :: _ => g.decoratedStatement
  | _ =>
    match ← peekWord with
    | some w => g.wordStatement w
    | none => g.expressionStatement

end IdentityLint.Syntax.Grammar
