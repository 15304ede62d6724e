import IdentityLint.Syntax.Grammar.Statement

/-!
Programs.

`Node.parse` reads a source text into a numbered tree.  The readers of the grammar refer to each
other through a `Grammar`; here the knot is tied, level by level.  A level is used up whenever a
construct is entered from inside another one, so as many levels as there are characters, and a
few for each, are enough for every text.

A text that breaks off or goes wrong is read as far as its leading complete statements.  There is
no recovery behind a mistake: a statement that cannot be read to its end has no nodes, and neither
has anything behind it, even if it could be read by itself.
-/

namespace IdentityLint.Syntax

open Parse Token

namespace Grammar

/-- The readers of the language, for constructs nested at most `depth` levels deep. -/
def ofDepth (jsx : Bool) : Nat → Grammar
  | 0 => .empty jsx
  | depth + 1 =>
    { jsx := jsx
      expression := fun c => (ofDepth jsx depth).commaExpression c
      assignment := fun c => (ofDepth jsx depth).assignmentExpression c
      branch := fun c => (ofDepth jsx depth).branchExpression c
      primary := fun c => (ofDepth jsx depth).primaryExpression c
      operand := fun c => (ofDepth jsx depth).operandExpression c
      statement := fun c => (ofDepth jsx depth).anyStatement c
      type := fun c => (ofDepth jsx depth).anyType c
      binding := fun c => (ofDepth jsx depth).bindingPattern c
      target := fun c => (ofDepth jsx depth).targetPattern c
      element := fun c => (ofDepth jsx depth).elementNode c }

end Grammar

/-- Skips the line that names the interpreter of a script, if the text begins with one. -/
def skipInterpreterLine : Parse Unit := fun c =>
  match c.rest with
  | '#' :: '!' :: rest => some ((), c.advance (2 + (rest.takeWhile (· != '\n')).length))
  | _ => some ((), c)

/-- The nodes of the leading complete statements of a text. -/
def program (g : Grammar) : Parse Forest := do
  skipInterpreterLine
  let statements ← many g.statement
  return statements.flatten

/-- The number of levels that the constructs of a text can be nested. -/
def depthBound (text : List Char) : Nat := 4 * text.length + 64

/-- The tree of a source text; `jsx` says whether elements in angle brackets are expressions. -/
def Node.parse (jsx : Bool) (source : String) : Node :=
  let text := source.toList
  let g := Grammar.ofDepth jsx (depthBound text)
  let nodes :=
    match program g (.start text) with
    | some (ns, _) => ns
    | none => []
  (Node.mk 0 .other ⟨0, source.utf8ByteSize⟩ nodes).numbered

end IdentityLint.Syntax
