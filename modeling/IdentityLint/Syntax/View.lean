import IdentityLint.Syntax.Node

/-!
Questions about single nodes: what a call calls, what its first argument is, which property
an object literal binds to a name, which dotted chain of names an expression spells, and what
is imported.

Parentheses are looked through wherever an expression is asked for its meaning, and nowhere
else.  A comment that stands between an opening parenthesis and the expression takes the
expression's place, so a parenthesised expression behind a comment has no meaning here.
-/

namespace IdentityLint.Syntax

namespace Node

/-- The expression inside all enclosing parentheses: the first child of the innermost pair. -/
def unwrapParens : Node → Node
  | mk _ .parenthesized _ (c :: _) => unwrapParens c
  | n => n

/-- Is the node something other than a comment? -/
def isPart (n : Node) : Bool := n.form != .comment

/-- The callee of a call. -/
def callee? (n : Node) : Option Node :=
  match n.form with
  | .call => n.children.find? isPart
  | _ => none

/-- The name of an identifier. -/
def name? (n : Node) : Option String :=
  match n.form with
  | .identifier x => some x
  | _ => none

/-- The name that a call calls, when the callee is a bare identifier: neither parenthesised
nor a member of something. -/
def calleeName? (n : Node) : Option String :=
  n.callee?.bind name?

/-- The first argument of a call, comments aside.  A tagged template has no arguments. -/
def firstArgument? (n : Node) : Option Node :=
  match n.children.find? fun c => c.form == .arguments with
  | some args => args.children.find? isPart
  | none => none

/-- What a member of an object literal binds to `key`: the value of a pair, without its
parentheses, or the method itself. -/
def boundTo? (key : String) (member : Node) : Option Node :=
  match member.form with
  | .pair (some k) =>
    if k == key then (member.children.reverse.find? isPart).map unwrapParens else none
  | .method (some k) => if k == key then some member else none
  | _ => none

/-- What an object literal binds to a plain key; the first binding counts. -/
def property? (n : Node) (key : String) : Option Node :=
  match n.form with
  | .object => n.children.findSome? (boundTo? key)
  | _ => none

/-! ### Chains of names -/

/-- What is in parentheses is no larger than the parentheses. -/
theorem sizeOf_unwrapParens_le (n : Node) : sizeOf n.unwrapParens ≤ sizeOf n := by
  fun_induction unwrapParens n with
  | case1 id span c rest ih =>
    simp only [mk.sizeOf_spec, List.cons.sizeOf_spec]
    omega
  | case2 n => exact Nat.le_refl _

theorem sizeOf_lt_of_find? {n c : Node} {wanted : Node → Bool}
    (h : n.children.find? wanted = some c) : sizeOf c < sizeOf n := by
  have hchild := List.sizeOf_lt_of_mem (List.mem_of_find?_eq_some h)
  cases n
  simp only [children, mk.sizeOf_spec] at hchild ⊢
  omega

/-- Follows a chain from its last name to its first.  `names` are the names passed so far, in the
order in which they were met, and `n` is what stands in front of them, without parentheses. -/
def chainBehind? (names : List String) (n : Node) : Option (List String) :=
  match n.form with
  | .member none => none
  | .member (some name) =>
    match _h : n.children.find? isPart with
    | none => none
    | some object => chainBehind? (names ++ [name]) object.unwrapParens
  | .identifier x => some (names ++ [x]).reverse
  | _ => none
termination_by sizeOf n
decreasing_by exact Nat.lt_of_le_of_lt (sizeOf_unwrapParens_le object) (sizeOf_lt_of_find? _h)

/-- The names of a dotted chain `a.b.c`, outermost object first.  Every property has to be a
plain name and the innermost object an identifier; parentheses do not matter. -/
def memberChain? (n : Node) : Option (List String) := chainBehind? [] n.unwrapParens

/-! ### Imports -/

/-- The text between the quotes of a string literal. -/
def stringValue? (literal : String) : Option String :=
  match literal.toList with
  | _ :: c :: cs => some (String.ofList (c :: cs).dropLast)
  | _ => none

/-- The exported name that a name in an import list stands for. -/
def importedName? : ListedName → Option String
  | .plain text => some text
  | .quoted literal => stringValue? literal

/-- What an entry of an import list imports, and the name it is bound to.  An entry without a name
of its own binds the name that it imports. -/
def specifier? (n : Node) : Option ImportSpecifier :=
  match n.form with
  | .importSpecifier name bound =>
    (importedName? name).map fun imported => ⟨imported, bound.getD imported⟩
  | _ => none

/-- The children of a given form. -/
def childrenOf (form : Form) (n : Node) : List Node := n.children.filter (·.form == form)

/-- What the lists of an import statement import. -/
def specifiers (n : Node) : List ImportSpecifier :=
  (n.childrenOf .importClause).flatMap fun clause =>
    (clause.childrenOf .namedImports).flatMap fun list => list.children.filterMap specifier?

/-- What an import statement imports. -/
def importDecl? (n : Node) : Option ImportDecl :=
  match n.form with
  | .importStatement (some literal) =>
    (stringValue? literal).map fun source => ⟨source, n.specifiers⟩
  | _ => none

end Node

end IdentityLint.Syntax
