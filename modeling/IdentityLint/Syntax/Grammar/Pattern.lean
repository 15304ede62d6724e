import IdentityLint.Syntax.Grammar.Type

/-!
Patterns.

A pattern takes a value apart.  Its nodes are the names it binds, the operands it writes to,
default values and computed keys; a shorthand property binds its key, which is no node.
-/

namespace IdentityLint.Syntax.Grammar

open Parse Token

/-- A braced pattern; `leaf` reads the places into which the parts go. -/
def objectPattern (g : Grammar) (leaf : Parse Forest) : Parse Forest := do
  punct "\x7b"
  let ps ← sepEnd (punct ",") <|
    (punct "..." *> leaf) <|>
    (do
      let k ← g.key
      punct ":"
      let p ← leaf
      let d ← g.initializer
      return k.2 ++ p ++ d) <|>
    (do
      let _ ← word
      g.initializer)
  punct "\x7d"
  return ps

/-- A bracketed pattern; `leaf` reads the places into which the elements go. -/
def arrayPattern (g : Grammar) (leaf : Parse Forest) : Parse Forest := do
  punct "["
  let ps ← sepEnd (punct ",") <|
    (do
      let _ ← attempt (punct "...")
      let p ← leaf
      let d ← g.initializer
      return p ++ d) <|>
    (do
      let _ ← peek (punct ",")
      return [])
  punct "]"
  return ps

/-- A pattern or a name, as a declaration binds it. -/
def bindingPattern (g : Grammar) : Parse Forest :=
  g.objectPattern g.binding <|> g.arrayPattern g.binding <|> variableName

/-- A pattern or an operand, as an assignment writes to it. -/
def targetPattern (g : Grammar) : Parse Forest :=
  g.objectPattern g.target <|> g.arrayPattern g.target <|>
  (do return [← g.operand])

end IdentityLint.Syntax.Grammar
