import IdentityLint.Scope
import IdentityLint.Syntax.TreeCursor

/-!
The walk over a tree.

A walk visits every node once, a node before its children and children from left to right, and
keeps the chain of function scopes as it goes.  A function literal is visited with the scopes
outside it; it is entered behind its own visit and left behind the last visit inside it.

What happens at a visit is up to the observer, a function that updates a state.  Nodes of kind
`other` are passed over in silence.
-/

namespace IdentityLint.Syntax

/-- A node met on a walk, with the function scopes around it. -/
structure Visit where
  node : Node
  scopes : ScopeChain

namespace Visit

/-- The kind of the visited node. -/
def kind (v : Visit) : NodeKind := v.node.kind

end Visit

namespace Node

/-- The scopes for the children of a node, given the scopes around the node. -/
def scopesInside (n : Node) (s : ScopeChain) : ScopeChain :=
  if n.isFunction then s.enter n.id else s

/-- The scopes behind a node, given the scopes behind its last descendant. -/
def scopesBehind (n : Node) (s : ScopeChain) : ScopeChain :=
  if n.isFunction then s.exit else s

end Node

namespace TreeCursor

/-- The next place in pre-order behind a finished node: the next sibling of the node, or of the
nearest node around it that has one.  Every node finished on the way is left. -/
def climb : Node → List Node → List (Node × List Node) → ScopeChain →
    Option TreeCursor × ScopeChain
  | node, n :: ns, around, scopes => (some ⟨n, ns, around⟩, node.scopesBehind scopes)
  | node, [], (n, ns) :: rest, scopes => climb n ns rest (node.scopesBehind scopes)
  | node, [], [], scopes => (none, node.scopesBehind scopes)
termination_by structural _ _ around => around

theorem pending_climb {d : TreeCursor} {node : Node} {right : List Node}
    {around : List (Node × List Node)} {scopes : ScopeChain}
    (h : (climb node right around scopes).1 = some d) :
    d.pending ≤ Node.sizeAll right + beyond around := by
  fun_induction climb node right around scopes with
  | case1 node n ns around scopes =>
    simp only [Option.some.injEq] at h
    subst h
    simp only [pending, Node.sizeAll]
    omega
  | case2 node n ns rest scopes ih =>
    have := ih h
    simp only [beyond, Node.sizeAll]
    omega
  | case3 => simp at h

/-- Visits the node at a place and, in pre-order, all nodes behind it.  Returns the observer's
last state and the scopes left open. -/
def visitAll {σ : Type} (observe : σ → Visit → σ) (c : TreeCursor) (scopes : ScopeChain)
    (state : σ) : σ × ScopeChain :=
  let state' := if c.node.kind = .other then state else observe state ⟨c.node, scopes⟩
  let inside := c.node.scopesInside scopes
  match _hc : c.firstChild? with
  | some d => visitAll observe d inside state'
  | none =>
    match _hd : climb c.node c.right c.around inside with
    | (some d, behind) => visitAll observe d behind state'
    | (none, behind) => (state', behind)
termination_by c.pending
decreasing_by
  · exact pending_firstChild? (by assumption)
  · have := pending_climb (congrArg Prod.fst (by assumption))
    have := size_pos c.node
    simp only [pending] at *
    omega

end TreeCursor

/-- Walks over a tree and returns the observer's last state. -/
def Node.walk {σ : Type} (observe : σ → Visit → σ) (init : σ) (root : Node) : σ :=
  ((TreeCursor.root root).visitAll observe .empty init).1

end IdentityLint.Syntax
