import IdentityLint.Syntax.Grammar.Function

/-!
Elements in angle brackets.

An element is an expression.  The names of its tags are identifiers or member accesses, its
attributes and its content may hold further expressions, and the rest of its content is text.
-/

namespace IdentityLint.Syntax.Grammar

open Parse Token

/-- Reads the name of a tag or attribute, which may contain hyphens. -/
def tagWord : Parse String := do
  let text ← ahead
  require (startsName text)
  let cs ← take (nameLength .plain text + tailLength (text.drop (nameLength .plain text)))
  return String.ofList cs
where
  /-- The number of characters that continue a name behind a hyphen. -/
  tailLength (text : List Char) : Nat :=
    match text with
    | '-' :: _ => (text.takeWhile fun c => isNameChar c || c == '-').length
    | _ => 0

/-- The second half of a name in a namespace. -/
def namespaced (first : Node) : Parse Forest := do
  punct ":"
  return [first, ← identifierOf tagWord]

/-- The name of a tag. -/
def tagName : Parse Forest := do
  let s ← here
  let first ← identifierOf tagWord
  namespaced first <|>
  (do
    let n ← iterate (fun n => do
      punct "."
      let p ← word
      close s (.member (some p)) [n]) first
    return [n])

/-- An expression in braces, possibly spread or missing. -/
def embedded (g : Grammar) : Parse Forest := do
  punct "\x7b"
  let _ ← attempt (punct "...")
  let e ← optionD [] (do return [← g.expression])
  punct "\x7d"
  return e

/-- A string in quotes without escapes. -/
def attributeString : Parse Unit := do
  match ← ahead with
  | q :: rest =>
    require (q == '"' || q == '\'')
    let n := (rest.takeWhile (· != q)).length
    require (n < rest.length)
    let _ ← take (n + 2)
  | [] => failure

/-- An attribute of a tag. -/
def tagAttribute (g : Grammar) : Parse Forest :=
  g.embedded <|>
  (do
    let first ← identifierOf tagWord
    let name ← optionD [] (namespaced first)
    let value ← optionD [] do
      punct "="
      (attributeString *> pure []) <|> g.embedded <|> (do return [← g.element])
    return name ++ value)

/-- A piece of the content of an element: text, an expression or an element. -/
def content (g : Grammar) : Parse Forest := do
  match (← get).rest with
  | '<' :: rest =>
    require ((firstToken rest).head? != some '/')
    return [← g.element]
  | '{' :: _ => g.embedded
  | text =>
    let n := (text.takeWhile fun c => c != '<' && c != '{').length
    set ((← get).advance n)
    return []

/-- What follows the opening tag of an element: content and the closing tag. -/
def elementTail (g : Grammar) : Parse Forest := do
  let inside ← many g.content
  punct "<"
  punct "/"
  let name ← optionD [] tagName
  punct ">"
  return inside.flatten ++ name

/-- An element. -/
def elementNode (g : Grammar) : Parse Node :=
  asOther do
    punct "<"
    (punct ">" *> g.elementTail) <|>
    (do
      let name ← tagName
      let ts ← optionD [] g.typeArguments
      let attributes ← many g.tagAttribute
      let inside ← (punct "/" *> punct ">" *> pure []) <|> (punct ">" *> g.elementTail)
      return name ++ ts ++ attributes.flatten ++ inside)

end IdentityLint.Syntax.Grammar
