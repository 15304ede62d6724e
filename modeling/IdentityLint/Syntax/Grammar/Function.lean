import IdentityLint.Syntax.Grammar.Pattern

/-!
Functions, object literals and classes.

Everything with parameters and a body is a function literal: function expressions and
declarations, arrow functions, and the methods, getters and setters of object literals and
classes.  A signature without a body is none.
-/

namespace IdentityLint.Syntax.Grammar

open Parse Token

/-! ### Functions -/

/-- The word that makes a function asynchronous, if it stands here. -/
def asyncWord (follower : String) : Parse Unit :=
  discard <| attempt do
    keyword "async"
    require !(← newlineAhead)
    peek (keyword follower)

/-- The head of a function: its name and signature. -/
def functionHead (g : Grammar) : Parse Forest := do
  asyncWord "function"
  keyword "function"
  let _ ← attempt (punct "*")
  let name ← optionD [] (do return [← identifierOf plainName])
  let sig ← g.signature
  return name ++ sig

/-- A function with a body. -/
def functionLiteral (g : Grammar) : Parse Node := do
  let s ← here
  let head ← g.functionHead
  let body ← g.block
  close s .function (head ++ body)

/-! ### Object literals -/

/-- The words and marks in front of the key of a method. -/
def methodMarks (words : List String) : Parse Unit := do
  let _ ← many (modifier words)
  let _ ← attempt (punct "*")

/-- A method of an object literal. -/
def objectMethod (g : Grammar) : Parse Node := do
  let s ← here
  methodMarks ["async", "get", "set", "static"]
  let k ← g.key
  let _ ← attempt (punct "?")
  let sig ← g.signature
  let body ← g.block
  close s (.method k.1) (k.2 ++ sig ++ body)

/-- A property with a key and a value. -/
def pair (g : Grammar) : Parse Node := do
  let s ← here
  let k ← g.key
  punct ":"
  let v ← g.assignment
  close s (.pair k.1) (k.2 ++ [v])

/-- A property of an object literal. -/
def property (g : Grammar) : Parse Forest :=
  (do punct "..."; return [← g.assignment]) <|>
  (do return [← g.pair]) <|>
  (do return [← g.objectMethod]) <|>
  (do let _ ← word; g.initializer)

/-- An object literal. -/
def objectLiteral (g : Grammar) : Parse Node := do
  let s ← here
  punct "\x7b"
  let ps ← sepEnd (punct ",") (g.property <|> (peek (punct ",") *> pure []))
  punct "\x7d"
  close s .object ps

/-! ### Classes -/

/-- The words that may stand in front of a member of a class. -/
def classModifiers : List String :=
  ["public", "private", "protected", "static", "abstract", "override", "readonly", "async",
    "declare", "accessor", "get", "set"]

/-- A member of a class. -/
def classMember (g : Grammar) : Parse Forest := do
  let decorators ← many g.decorator
  let s ← here
  let member ←
    (do keyword "static"; g.block) <|>
    (do
      methodMarks classModifiers
      let k ← g.key
      let _ ← attempt (punct "?" <|> punct "!")
      (do
        let sig ← g.signature
        (do
          let body ← g.block
          return [← close s (.method k.1) (k.2 ++ sig ++ body)]) <|>
        pure (k.2 ++ sig)) <|>
      (do
        let t ← g.typed
        let v ← g.initializer
        return k.2 ++ t ++ v)) <|>
    (do
      let _ ← many (modifier classModifiers)
      g.indexMember)
  let _ ← attempt (punct ";" <|> punct ",")
  return decorators.flatten ++ member

/-- The braced members of a class. -/
def classBody (g : Grammar) : Parse Forest := do
  punct "\x7b"
  let ms ← many (g.classMember <|> (punct ";" *> pure []))
  punct "\x7d"
  return ms.flatten

/-- What a class extends and implements. -/
def heritage (g : Grammar) : Parse Forest :=
  (do
    keyword "extends"
    let ps ← sepBy1 (punct ",") do
      let e ← g.operand
      let ts ← optionD [] g.typeArguments
      return e :: ts
    return ps.flatten) <|>
  (do
    keyword "implements"
    let ts ← sepBy1 (punct ",") g.type
    return ts.flatten)

/-- A class, from the word `class` on. -/
def classTail (g : Grammar) : Parse Forest := do
  keyword "class"
  let _ ← attempt do
    let w ← plainName
    require (w != "implements")
  let ts ← optionD [] g.typeParameters
  let hs ← many g.heritage
  let body ← g.classBody
  return ts ++ hs.flatten ++ body

end IdentityLint.Syntax.Grammar
