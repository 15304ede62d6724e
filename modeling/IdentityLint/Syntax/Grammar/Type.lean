import IdentityLint.Syntax.Grammar.Basic

/-!
Types and signatures.

A type has no node.  The nodes inside it are the names of parameters of function types, the
first name of a dotted path, the operand of `typeof`, the module of an imported type, the
subject of a predicate and the computed keys of members.
-/

namespace IdentityLint.Syntax.Grammar

open Parse Token

/-- The arguments of a generic. -/
def typeArguments (g : Grammar) : Parse Forest := do
  punct "<"
  let ts ← sepEnd (punct ",") g.type
  punct ">"
  return ts

/-- The parameters of a generic declaration. -/
def typeParameters (g : Grammar) : Parse Forest := do
  punct "<"
  let ps ← sepEnd (punct ",") do
    let ws ← many (absent (keyword "extends") *> word)
    require (!ws.isEmpty)
    let bound ← optionD [] (keyword "extends" *> g.type)
    let default ← optionD [] (assign *> g.type)
    return bound ++ default
  punct ">"
  return ps

/-- The names by which a decorator is applied. -/
def decorator (g : Grammar) : Parse Forest := do
  punct "@"
  let s ← here
  (do
    punct "("
    let e ← g.expression
    punct ")"
    return [e]) <|>
  (do
    let first ← identifierOf plainName
    let path ← iterate (fun n => do
      punct "."
      let p ← word
      close s (.member (some p)) [n]) first
    optionD [path] do
      let ts ← optionD [] g.typeArguments
      let args ← g.arguments
      return [← close s .call (path :: ts ++ [args])])

/-- The words that may stand in front of a parameter. -/
def parameterModifiers : List String :=
  ["public", "private", "protected", "override", "readonly"]

/-- One parameter. -/
def parameter (g : Grammar) : Parse Forest := do
  let decorators ← many g.decorator
  let _ ← many (modifier parameterModifiers)
  let _ ← attempt (punct "...")
  let bound ← (keyword "this" *> pure []) <|> g.binding
  let _ ← attempt (punct "?")
  let type ← optionD [] (punct ":" *> g.type)
  let default ← g.initializer
  return decorators.flatten ++ bound ++ type ++ default

/-- A parenthesised parameter list. -/
def parameters (g : Grammar) : Parse Forest := do
  punct "("
  let ps ← sepEnd (punct ",") g.parameter
  punct ")"
  return ps

/-- The type behind a colon, if there is one. -/
def typed (g : Grammar) : Parse Forest := optionD [] (punct ":" *> g.type)

/-- Parameters and result of a function. -/
def signature (g : Grammar) : Parse Forest := do
  let ts ← optionD [] g.typeParameters
  let ps ← g.parameters
  let r ← g.typed
  return ts ++ ps ++ r

/-! ### Members of object types -/

/-- The words that may stand in front of a member of an object type. -/
def memberModifiers : List String :=
  ["readonly", "get", "set", "static", "public", "private", "protected", "override", "declare",
    "abstract"]

/-- The sign that adds or removes a modifier of a mapped member. -/
def sign : Parse Unit := do
  let _ ← attempt (punct "+" <|> punct "-")

/-- An index signature or a mapped member. -/
def indexMember (g : Grammar) : Parse Forest := do
  sign
  let _ ← attempt (keyword "readonly" *> peek (punct "["))
  punct "["
  let s ← here
  let x ← word
  let inside ←
    (do
      let n ← close s (.identifier x) []
      punct ":"
      let t ← g.type
      return n :: t) <|>
    (do
      keyword "in"
      let t ← g.type
      let renamed ← optionD [] (keyword "as" *> g.type)
      return t ++ renamed)
  punct "]"
  sign
  let _ ← attempt (punct "?")
  let t ← g.typed
  return inside ++ t

/-- A member of an object type. -/
def typeMember (g : Grammar) : Parse Forest :=
  g.indexMember <|>
  (do
    let _ ← attempt (keyword "new")
    g.signature) <|>
  (do
    let _ ← many (modifier memberModifiers)
    let k ← g.key
    let _ ← attempt (punct "?")
    let sig ← g.signature <|> g.typed
    return k.2 ++ sig)

/-- The braced members of an object type or an interface. -/
def objectType (g : Grammar) : Parse Forest := do
  punct "\x7b"
  let ms ← many (g.typeMember <* attempt (punct "," <|> punct ";"))
  punct "\x7d"
  return ms.flatten

/-! ### Types -/

/-- An element of a tuple type. -/
def tupleElement (g : Grammar) : Parse Forest := do
  let _ ← attempt (punct "...")
  (do
    let n ← identifierOf word
    let _ ← attempt (punct "?")
    punct ":"
    let t ← g.type
    return n :: t) <|>
  (g.type <* attempt (punct "?"))

/-- A call of `import` with its arguments. -/
def importCall (g : Grammar) : Parse Node := do
  let s ← here
  let callee ← asOther (keyword "import" *> pure [])
  let args ← g.arguments
  close s .call [callee, args]

/-- The members taken of an expression inside a type. -/
def typeMembers (s : Nat) (first : Node) : Parse Node :=
  iterate (fun n => do
    punct "."
    (do
      let p ← word
      close s (.member (some p)) [n]) <|>
    (do
      privateName
      close s (.member none) [n])) first

/-- The type of a value. -/
def typeQuery (g : Grammar) : Parse Forest := do
  keyword "typeof"
  let s ← here
  let first ← g.importCall <|> asOther (keyword "this" *> pure []) <|> identifierOf word
  let n ← typeMembers s first
  let ts ← optionD [] g.typeArguments
  return n :: ts

/-- An imported type. -/
def importType (g : Grammar) : Parse Forest := do
  let s ← here
  let call ← g.importCall
  let n ← typeMembers s call
  let ts ← optionD [] g.typeArguments
  return n :: ts

/-- The type of a function or a constructor. -/
def functionType (g : Grammar) : Parse Forest := do
  let _ ← attempt (keyword "abstract" *> peek (keyword "new"))
  let _ ← attempt (keyword "new")
  let ts ← optionD [] g.typeParameters
  let ps ← g.parameters
  punct "=>"
  let r ← g.type
  return ts ++ ps ++ r

/-- The words that stand in front of a type and take it as their operand. -/
def typeOperators : List String := ["keyof", "unique", "readonly"]

/-- What a predicate says of its subject. -/
def predicate (g : Grammar) : Parse Forest := do
  require !(← newlineAhead)
  keyword "is"
  g.type

/-- The subject of a predicate. -/
def subject : Parse Forest :=
  (keyword "this" *> pure []) <|> (do return [← identifierOf word])

/-- The names behind the dots of a path, each with the offset at which it ends. -/
def pathNames : Parse (List (String × Nat)) :=
  many do
    punct "."
    let p ← word
    return (p, ← behind)

/-- The nodes of a path that names a namespace: the path without its last name. -/
def nestedPath (start : Nat) (first : Node) (names : List (String × Nat)) : Forest :=
  [names.dropLast.foldl (fun n q => .mk 0 (.member (some q.1)) ⟨start, q.2⟩ [n]) first]

/-- The name of a type.  Where it is a path, all but the last name is the path of a
namespace. -/
def typePath : Parse Forest := do
  let s ← here
  let first ← identifierOf word
  let names ← pathNames
  return if names.isEmpty then [] else nestedPath s first names.dropLast

/-- A type without operators around it. -/
def primaryType (g : Grammar) : Parse Forest :=
  (do
    require (← looksAt "(")
    require ("=>".toList.isPrefixOf (← behindGroup))
    g.functionType) <|>
  (do
    punct "("
    let t ← g.type
    punct ")"
    return t) <|>
  (do
    require (← looksAt "<")
    g.functionType) <|>
  g.objectType <|>
  (do
    punct "["
    let es ← sepEnd (punct ",") g.tupleElement
    punct "]"
    return es) <|>
  (do let _ ← stringLiteral; return []) <|>
  (do let _ ← attempt (punct "-"); numberLiteral; return []) <|>
  template g.type <|>
  (do
    match ← peekWord with
    | some "new" => g.functionType
    | some "typeof" => g.typeQuery
    | some "import" => g.importType
    | some "abstract" => g.functionType <|> typePath
    | some "asserts" =>
      (do
        keyword "asserts"
        require !(← newlineAhead)
        let x ← subject
        require (x.all fun n => n.form != .identifier "is")
        let p ← optionD [] g.predicate
        return x ++ p) <|> typePath
    | some "infer" =>
      (do
        keyword "infer"
        let _ ← plainName
        optionD [] (keyword "extends" *> g.type)) <|> typePath
    | some _ =>
      (do
        let x ← subject
        let p ← g.predicate
        return x ++ p) <|>
      (do
        let path ← typePath
        let ts ← optionD [] g.typeArguments
        return path ++ ts)
    | none => failure)

/-- A type with its array and lookup brackets. -/
def postfixType (g : Grammar) : Parse Forest := do
  let t ← g.primaryType
  iterate (fun t => do
    require !(← newlineAhead)
    punct "["
    let i ← optionD [] g.type
    punct "]"
    return t ++ i) t

/-- A type behind its operators. -/
def operatorType (g : Grammar) : Parse Forest := do
  let _ ← many do
    let w ← word
    require (typeOperators.contains w)
    match ← ahead with
    | c :: _ => require (isNameStart c || "([\x7b\"'`<-".toList.contains c)
    | [] => failure
  g.postfixType

/-- A union of intersections. -/
def unionType (g : Grammar) : Parse Forest := do
  let sep : Parse Unit := punct "|" <|> punct "&"
  let _ ← attempt sep
  let ts ← sepBy1 sep g.operatorType
  return ts.flatten

/-- A type. -/
def anyType (g : Grammar) : Parse Forest := do
  let t ← g.unionType
  let rest ← optionD [] do
    require !(← newlineAhead)
    keyword "extends"
    let u ← g.unionType
    punct "?"
    let a ← g.type
    punct ":"
    let b ← g.type
    return u ++ a ++ b
  return t ++ rest

end IdentityLint.Syntax.Grammar
