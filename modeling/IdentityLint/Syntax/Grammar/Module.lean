import IdentityLint.Syntax.Grammar.Expression

/-!
Imports and exports.

An import statement is a node, and so are its clause, the list in it and the entries of the list.
Both names of an entry of an import or export list are identifiers, as are default and namespace
bindings.
-/

namespace IdentityLint.Syntax.Grammar

open Parse Token

/-- The characters with which a line cannot begin a new statement. -/
def continuesStatement : List Char := "`,.;*%>=<?^|&/:".toList

/-- The end of a statement: a semicolon, or a place where one may be left out.  That is in
front of a closing brace, at the end of the text, and at a line break unless the next line goes
on with the statement. -/
def semicolon : Parse Unit :=
  punct ";" <|> do
    match ← ahead with
    | [] => pure ()
    | '}' :: _ => pure ()
    | c :: rest =>
      require (← newlineAhead)
      require (!continuesStatement.contains c)
      if c == '+' || c == '-' then require (rest.head? == some c)
      else if c == '!' then require (rest.head? != some '=')
      else
        let w ← peekWord
        require (w != some "in" && w != some "instanceof")

/-! ### Lists of names -/

/-- A name of an import or export list, and its node; a string has none. -/
def listedName : Parse (ListedName × Forest) :=
  (do
    let literal ← stringLiteral
    return (.quoted literal, [])) <|>
  (do
    let s ← here
    let x ← word
    return (.plain x, [← close s (.identifier x) []]))

/-- An entry of an import or export list without the word that marks types: its name and the one
behind the word `as`, and their nodes. -/
def listedPair : Parse ((ListedName × Option String) × Forest) := do
  let name ← listedName
  (do
    keyword "as"
    let other ← listedName
    return ((name.1, some other.1.text), name.2 ++ other.2)) <|>
  pure ((name.1, none), name.2)

/-- Succeeds behind an entry of an import or export list. -/
def endsEntry : Parse Unit := peek (punct "," <|> punct "\x7d")

/-- An entry of an import or export list.  The words `type` and `typeof` mark an entry, unless
they are its name. -/
def listedEntry : Parse ((ListedName × Option String) × Forest) :=
  ((keyword "type" <|> keyword "typeof") *> listedPair <* endsEntry) <|>
  (listedPair <* endsEntry)

/-- The braced list of an import or export, with entries read by `p`. -/
def nameList (p : Parse Forest) : Parse Forest := do
  punct "\x7b"
  let entries ← sepEnd (punct ",") p
  punct "\x7d"
  return entries

/-! ### Imports -/

/-- An entry of an import list. -/
def importSpecifier : Parse Node := do
  let s ← here
  let entry ← listedEntry
  close s (.importSpecifier entry.1.1 entry.1.2) entry.2

/-- The list of an import clause. -/
def namedImports : Parse Node := do
  let s ← here
  let entries ← nameList do return [← importSpecifier]
  close s .namedImports entries

/-- The name that stands for a whole module. -/
def namespaceImport : Parse Node := do
  punct "*"
  keyword "as"
  identifierOf word

/-- What an import statement binds, up to the word `from`. -/
def importClause : Parse Node := do
  let s ← here
  let parts ←
    (do return [← namespaceImport]) <|> (do return [← namedImports]) <|>
    (do
      let default ← identifierOf word
      let more ← optionD [] (punct "," *> (do return [← namespaceImport <|> namedImports]))
      return default :: more)
  close s .importClause parts

/-- The attributes of an imported or exported module. -/
def moduleAttributes (g : Grammar) : Parse Forest :=
  optionD [] do
    keyword "with"
    return [← g.objectLiteral]

/-- The string literal of the module that names come from. -/
def fromClause : Parse String := keyword "from" *> stringLiteral

/-- The body of an import statement behind its first words: the string literal of its module, and
its nodes. -/
def importBody (g : Grammar) : Parse (Option String × Forest) :=
  (do
    let clause ← importClause
    let source ← fromClause
    let attributes ← g.moduleAttributes
    return (some source, clause :: attributes)) <|>
  (do
    let x ← identifierOf word
    punct "="
    keyword "require"
    punct "("
    let _ ← stringLiteral
    punct ")"
    return (none, [x])) <|>
  (do
    let source ← stringLiteral
    let attributes ← g.moduleAttributes
    return (some source, attributes))

/-- An import statement. -/
def importStatement (g : Grammar) : Parse Node := do
  let s ← here
  keyword "import"
  let body ←
    ((keyword "type" <|> keyword "typeof") *> g.importBody <* peek semicolon) <|>
    (g.importBody <* peek semicolon)
  semicolon
  close s (.importStatement body.1) body.2

/-- A further name for a namespace or a member of one, which imports no module. -/
def importAlias : Parse Forest := do
  keyword "import"
  let x ← identifierOf word
  punct "="
  let s ← here
  let first ← identifierOf plainName
  let names ← pathNames
  semicolon
  return x :: nestedPath s first names

/-! ### Exports -/

/-- An export statement; `declaration` reads what may be exported where it is declared. -/
def exportStatement (g : Grammar) (declaration : Parse Forest) : Parse Forest := do
  keyword "export"
  (do
    let _ ← attempt (keyword "type")
    punct "*"
    let name ← optionD [] do
      keyword "as"
      return (← listedName).2
    let _ ← fromClause
    let attributes ← g.moduleAttributes
    semicolon
    return name ++ attributes) <|>
  (do
    let _ ← attempt (keyword "type")
    let names ← nameList do return (← listedEntry).2
    let attributes ← optionD [] (fromClause *> g.moduleAttributes)
    semicolon
    return names ++ attributes) <|>
  (do
    keyword "default"
    declaration <|>
    (do
      let e ← g.expression
      semicolon
      return [e])) <|>
  (do
    assign
    let e ← g.expression
    semicolon
    return [e]) <|>
  (do
    keyword "as"
    keyword "namespace"
    let x ← identifierOf word
    semicolon
    return [x]) <|>
  declaration

end IdentityLint.Syntax.Grammar
