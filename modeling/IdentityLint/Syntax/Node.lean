/-!
The syntax tree that the analyses read.

A tree is a rose tree of nodes.  A node has a *form*, the span of bytes it covers, its
children in the order of the text, and a number.  Only the constructs that some analysis
distinguishes have a form of their own; every other expression has the form `other`, and a
construct that is no expression (a statement, a type, a pattern) has no node at all: the
nodes inside it are children of the nearest enclosing node.

What an analysis asks about a node without looking below it is part of the form: the name of
an identifier, the plain key of a property, the module of an import and the two names in an entry
of its list.

Numbers tell nodes apart.  `Node.numbered` gives the nodes of a tree the numbers `0, 1, 2, …`
in pre-order, so no two nodes of a numbered tree share one.
-/

namespace IdentityLint.Syntax

/-- A half-open range of byte offsets. -/
structure Span where
  start : Nat
  stop : Nat
  deriving Repr, DecidableEq, Inhabited

namespace Span

/-- The number of bytes covered. -/
def length (s : Span) : Nat := s.stop - s.start

end Span

/-- One name of an import list: the name exported by the module and the name it is bound to. -/
structure ImportSpecifier where
  imported : String
  bound : String
  deriving Repr, DecidableEq, Inhabited

/-- What an import statement brings in by name, and the module it names.  Default and namespace
imports bind no exported name and are not listed. -/
structure ImportDecl where
  source : String
  specifiers : List ImportSpecifier
  deriving Repr, DecidableEq, Inhabited

/-- A name in an import or export list, as it is written. -/
inductive ListedName where
  | plain (text : String)
  /-- A string literal, with its quotes. -/
  | quoted (literal : String)
  deriving Repr, DecidableEq, Inhabited

/-- The text of a name in a list. -/
def ListedName.text : ListedName → String
  | plain text => text
  | quoted literal => literal

/-- The forms of nodes. -/
inductive Form where
  /-- An import statement, with the string literal that names the module; `none` for an import
  that names no module of its own. -/
  | importStatement (source : Option String)
  /-- What an import statement binds: a default, a namespace or a list. -/
  | importClause
  /-- The braced list of an import clause. -/
  | namedImports
  /-- An entry of an import list: the name that is imported, and the one behind the word `as`. -/
  | importSpecifier (name : ListedName) (bound : Option String)
  /-- A call.  The callee is the first child; a child of form `arguments` holds the arguments,
  and a tagged template has none. -/
  | call
  /-- A member access by name.  The object is the first child; the property is `none` when it
  is a private name. -/
  | member (property : Option String)
  | identifier (name : String)
  /-- An object literal. -/
  | object
  /-- An arrow function, or a function expression or declaration with a body. -/
  | function
  /-- A method, getter or setter with a body; `none` when the key is not a plain name. -/
  | method (key : Option String)
  /-- A `key: value` property, whose value is the last child; `none` when the key is not a
  plain name. -/
  | pair (key : Option String)
  /-- The parenthesised argument list of a call. -/
  | arguments
  /-- An expression in parentheses, after the comments that precede it there. -/
  | parenthesized
  | comment
  | other
  deriving Repr, DecidableEq, Inhabited

/-- The kinds into which an analysis sorts the nodes it subscribes to. -/
inductive NodeKind where
  | importDeclaration
  | callExpression
  | memberExpression
  | identifier
  | objectLiteral
  | functionLiteral
  | other
  deriving Repr, DecidableEq, Inhabited

namespace NodeKind

/-- All kinds, in the order in which they are listed to users. -/
def all : List NodeKind :=
  [importDeclaration, callExpression, memberExpression, identifier, objectLiteral,
    functionLiteral, other]

/-- The name under which a kind is listed. -/
def name : NodeKind → String
  | importDeclaration => "ImportDeclaration"
  | callExpression => "CallExpression"
  | memberExpression => "MemberExpression"
  | identifier => "Identifier"
  | objectLiteral => "ObjectLiteral"
  | functionLiteral => "FunctionLiteral"
  | other => "Other"

/-- The kind with a given name. -/
def ofName? (s : String) : Option NodeKind :=
  all.find? fun k => k.name == s

end NodeKind

namespace Form

/-- The kind of the nodes of a form. -/
def kind : Form → NodeKind
  | importStatement _ => .importDeclaration
  | importClause => .other
  | namedImports => .other
  | importSpecifier _ _ => .other
  | call => .callExpression
  | member _ => .memberExpression
  | identifier _ => .identifier
  | object => .objectLiteral
  | function => .functionLiteral
  | method _ => .functionLiteral
  | pair _ => .other
  | arguments => .other
  | parenthesized => .other
  | comment => .other
  | other => .other

end Form

/-- A node of the syntax tree. -/
inductive Node where
  | mk (id : Nat) (form : Form) (span : Span) (children : List Node)
  deriving Repr, Inhabited

namespace Node

/-- The number of a node. -/
def id : Node → Nat
  | mk i _ _ _ => i

/-- The form of a node. -/
def form : Node → Form
  | mk _ f _ _ => f

/-- The bytes that a node covers. -/
def span : Node → Span
  | mk _ _ s _ => s

/-- The children, in the order of the text. -/
def children : Node → List Node
  | mk _ _ _ cs => cs

/-- The kind of a node. -/
def kind (n : Node) : NodeKind := n.form.kind

/-- Is the node a function literal, that is, does it open a scope? -/
def isFunction (n : Node) : Bool := n.kind == .functionLiteral

/-! ### Numbering -/

mutual
/-- Numbers the nodes of a tree in pre-order from `i` on; also returns the next free number. -/
def numberFrom : Nat → Node → Node × Nat
  | i, mk _ f s cs =>
    let r := numberAllFrom (i + 1) cs
    (mk i f s r.1, r.2)
/-- Numbers the nodes of a forest in pre-order from `i` on. -/
def numberAllFrom : Nat → List Node → List Node × Nat
  | i, [] => ([], i)
  | i, c :: cs =>
    let r := numberFrom i c
    let rs := numberAllFrom r.2 cs
    (r.1 :: rs.1, rs.2)
end

/-- The tree with its nodes numbered `0, 1, 2, …` in pre-order. -/
def numbered (n : Node) : Node := (numberFrom 0 n).1

/-! ### The nodes of a tree -/

mutual
/-- The nodes of a tree in pre-order: a node before its children, children from left to right. -/
def preorder : Node → List Node
  | mk i f s cs => mk i f s cs :: preorderAll cs
/-- The nodes of a forest in pre-order. -/
def preorderAll : List Node → List Node
  | [] => []
  | c :: cs => preorder c ++ preorderAll cs
end

end Node

end IdentityLint.Syntax
