import IdentityLint.Syntax.Node

/-!
Places in a tree.

A `TreeCursor` stands at a node of a tree.  It remembers, for the node and for every node around
it, only the siblings to the right, because a walk never turns back.

`pending` counts the nodes that a walk in pre-order has yet to visit, the current one included.
Moving down makes it smaller.
-/

namespace IdentityLint.Syntax

namespace Node

mutual
/-- The number of nodes of a tree. -/
def size : Node → Nat
  | mk _ _ _ cs => 1 + sizeAll cs
/-- The number of nodes of a forest. -/
def sizeAll : List Node → Nat
  | [] => 0
  | c :: cs => size c + sizeAll cs
end

end Node

/-- A place in a tree. -/
structure TreeCursor where
  /-- The node at the place. -/
  node : Node
  /-- The siblings to its right. -/
  right : List Node
  /-- The nodes around it, innermost first, each with the siblings to its right. -/
  around : List (Node × List Node)

namespace TreeCursor

/-- The place of the root of a tree. -/
def root (n : Node) : TreeCursor := ⟨n, [], []⟩

/-- The place of the first child. -/
def firstChild? (c : TreeCursor) : Option TreeCursor :=
  match c.node.children with
  | [] => none
  | n :: ns => some ⟨n, ns, (c.node, c.right) :: c.around⟩

/-- The number of nodes to the right of the nodes around a place. -/
def beyond : List (Node × List Node) → Nat
  | [] => 0
  | (_, ns) :: rest => Node.sizeAll ns + beyond rest

/-- The number of nodes that a walk in pre-order has yet to visit. -/
def pending (c : TreeCursor) : Nat :=
  c.node.size + (Node.sizeAll c.right + beyond c.around)

theorem size_pos (n : Node) : 0 < n.size := by
  cases n; simp only [Node.size]; omega

theorem pending_firstChild? {c d : TreeCursor} (h : c.firstChild? = some d) :
    d.pending < c.pending := by
  obtain ⟨⟨i, f, s, cs⟩, right, around⟩ := c
  cases cs with
  | nil => simp [firstChild?, Node.children] at h
  | cons n ns =>
    simp only [firstChild?, Node.children, Option.some.injEq] at h
    subst h
    simp only [pending, beyond, Node.size, Node.sizeAll]
    omega

end TreeCursor

end IdentityLint.Syntax
