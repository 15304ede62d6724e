import IdentityLint.Syntax.Balance

/-!
The frame of the grammar.

The constructs of the language contain each other: an expression may hold a function, whose
body holds statements, which hold expressions.  A `Grammar` collects the readers through which
one construct reaches another.  Each module of the grammar defines its readers for an arbitrary
`Grammar`, and the knot is tied once, in `IdentityLint.Syntax.Program`.

A construct without a node of its own is read as a `Forest`, the list of the nodes inside it.
-/

namespace IdentityLint.Syntax

/-- The nodes inside a construct that has no node of its own. -/
abbrev Forest : Type := List Node

/-- The readers through which the constructs of the language reach each other. -/
structure Grammar where
  /-- Are elements in angle brackets expressions? -/
  jsx : Bool
  /-- An expression, commas included. -/
  expression : Parse Node
  /-- An expression without top-level commas. -/
  assignment : Parse Node
  /-- An expression between the question mark and the colon of a conditional. -/
  branch : Parse Node
  /-- An operand without member accesses and calls. -/
  primary : Parse Node
  /-- An operand with its member accesses and calls. -/
  operand : Parse Node
  /-- A statement or declaration. -/
  statement : Parse Forest
  /-- A type. -/
  type : Parse Forest
  /-- What a declaration or a parameter binds: a name or a pattern. -/
  binding : Parse Forest
  /-- What an assignment may write to: an operand or a pattern. -/
  target : Parse Forest
  /-- An element in angle brackets. -/
  element : Parse Node

namespace Grammar

open Parse Token

/-- The grammar in which nothing can be read. -/
def empty (jsx : Bool) : Grammar where
  jsx := jsx
  expression := failure
  assignment := failure
  branch := failure
  primary := failure
  operand := failure
  statement := failure
  type := failure
  binding := failure
  target := failure
  element := failure

/-- A braced list of statements. -/
def block (g : Grammar) : Parse Forest := do
  punct "\x7b"
  let body ← many g.statement
  punct "\x7d"
  return body.flatten

/-- The key of a property or member: its plain name, if it has one, and the nodes in it. -/
def key (g : Grammar) : Parse (Option String × Forest) :=
  (do let w ← word; return (some w, [])) <|>
  (do let _ ← stringLiteral; return (none, [])) <|>
  (do numberLiteral; return (none, [])) <|>
  (do privateName; return (none, [])) <|>
  (do
    punct "["
    let e ← g.assignment
    punct "]"
    return (none, [e]))

/-- Reads one of the given words in front of a further part of a member.  A word that the
member's own name or end would follow is the name itself. -/
def modifier (words : List String) : Parse String := do
  let w ← word
  require (words.contains w)
  match ← ahead with
  | [] => failure
  | c :: _ => require (!"(:,;=<?!\x7d)".toList.contains c)
  return w

/-- The default value behind a binding. -/
def initializer (g : Grammar) : Parse Forest :=
  optionD [] do
    assign
    let e ← g.assignment
    return [e]

/-- A parenthesised argument list. -/
def arguments (g : Grammar) : Parse Node := do
  let s ← here
  punct "("
  let args ← sepEnd (punct ",") do
    let a ← (asOther do punct "..."; return [← g.assignment]) <|> g.assignment
    return [a]
  punct ")"
  close s .arguments args

/-- A template: the expressions or types that it substitutes are read with `p`. -/
def template (p : Parse Forest) : Parse Forest := do
  punct "`"
  let pieces ← many do
    match templateRun? (← get).rest with
    | some (n, .substitution) =>
      set ((← get).advance n)
      let e ← p
      punct "\x7d"
      return e
    | _ => failure
  match templateRun? (← get).rest with
  | some (n, .closed) => set ((← get).advance n)
  | _ => failure
  return pieces.flatten

end Grammar

end IdentityLint.Syntax
