import IdentityLint.Proofs.Places
import IdentityLint.Proofs.ScopeChain
import IdentityLint.Syntax.Walk

/-!
# What a walk visits

The walk moves a cursor through the tree and keeps the function scopes by entering a function on
the way down and leaving it on the way up.  Here it is compared with the plain recursion over the
tree: `Node.visitsFrom` lists the nodes of a tree with the scopes around each, and
`Node.scopesPast` gives the scopes behind the tree.

* `visitAll_eq_resume`: from any place on, the walk does what the recursion does for the node at
  the place, and then goes on behind it.
* `map_visitsFrom`: the recursion meets the places of the tree in pre-order, each with the
  functions around it open.
* `linked_visitsFrom`: if no two functions share a number, the scopes are linked at every
  visit, so the walk outward through them meets the open functions.

Several parties may follow one walk, each interested in nodes of some kinds.  `Subscriber.dispatch`
is the observer that shows every party what it is interested in.
-/

namespace IdentityLint.Syntax

namespace Node

mutual
/-- The scopes behind a tree, given the scopes in front of it. -/
def scopesPast : ScopeChain → Node → ScopeChain
  | s, mk i f sp cs =>
    (mk i f sp cs).scopesBehind (scopesPastAll ((mk i f sp cs).scopesInside s) cs)
/-- The scopes behind a forest, given the scopes in front of it. -/
def scopesPastAll : ScopeChain → List Node → ScopeChain
  | s, [] => s
  | s, c :: cs => scopesPastAll (scopesPast s c) cs
end

mutual
/-- The nodes of a tree in pre-order, each with the scopes around it, given the scopes around the
tree. -/
def visitsFrom : ScopeChain → Node → List Visit
  | s, mk i f sp cs => ⟨mk i f sp cs, s⟩ :: visitsFromAll ((mk i f sp cs).scopesInside s) cs
/-- The nodes of a forest in pre-order, each with the scopes around it. -/
def visitsFromAll : ScopeChain → List Node → List Visit
  | _, [] => []
  | s, c :: cs => visitsFrom s c ++ visitsFromAll (scopesPast s c) cs
end

lemma scopesPast_eq (n : Node) (s : ScopeChain) :
    n.scopesPast s = n.scopesBehind (scopesPastAll (n.scopesInside s) n.children) := by
  cases n
  rfl

/-- The visits of a walk over a tree: nodes of kind `other` are not shown to the observer. -/
def visits (tree : Node) : List Visit :=
  (tree.visitsFrom .empty).filter fun v => v.kind ≠ .other

end Node

namespace TreeCursor

variable {σ : Type} (observe : σ → Visit → σ)

/-! ### The cursor against the recursion -/

/-- The observer's state behind a node. -/
def notice (state : σ) (v : Visit) : σ := if v.kind = .other then state else observe state v

/-- The rest of a walk behind a finished node, given the scopes behind its last descendant. -/
def resume (node : Node) (right : List Node) (around : List (Node × List Node))
    (scopes : ScopeChain) (state : σ) : σ × ScopeChain :=
  match climb node right around scopes with
  | (some d, behind) => visitAll observe d behind state
  | (none, behind) => (state, behind)

/-- The rest of a walk from the children `cs` of a parent on, given the scopes around them. -/
def descend (cs : List Node) (parent : Node) (right : List Node)
    (around : List (Node × List Node)) (scopes : ScopeChain) (state : σ) : σ × ScopeChain :=
  match cs with
  | [] => resume observe parent right around scopes state
  | c :: cs => visitAll observe ⟨c, cs, (parent, right) :: around⟩ scopes state

lemma resume_root (node : Node) (scopes : ScopeChain) (state : σ) :
    resume observe node [] [] scopes state = (state, node.scopesBehind scopes) := by
  rw [resume, climb]

/-- Behind a child the walk goes on with the siblings to its right. -/
lemma resume_child (c : Node) (cs : List Node) (parent : Node) (right : List Node)
    (around : List (Node × List Node)) (scopes : ScopeChain) (state : σ) :
    resume observe c cs ((parent, right) :: around) scopes state =
      descend observe cs parent right around (c.scopesBehind scopes) state := by
  cases cs with
  | nil => rw [resume, climb, descend, resume]
  | cons d ds => rw [resume, climb, descend]

/-- At a place the walk visits the node and goes on with its children. -/
lemma visitAll_eq_descend (n : Node) (right : List Node) (around : List (Node × List Node))
    (scopes : ScopeChain) (state : σ) :
    visitAll observe ⟨n, right, around⟩ scopes state =
      descend observe n.children n right around (n.scopesInside scopes)
        (notice observe state ⟨n, scopes⟩) := by
  obtain ⟨i, f, sp, cs⟩ := n
  rw [visitAll]
  cases cs with
  | nil =>
    -- at a leaf the walk climbs at once, and the way up is the same for both sides
    rw [Node.children, descend, resume]
    split
    · next h => simp [firstChild?, Node.children] at h
    · split
      · next d behind h =>
        rw [show climb (.mk i f sp []) right around _ = (some d, behind) from h]
        rfl
      · next behind h =>
        rw [show climb (.mk i f sp []) right around _ = (none, behind) from h]
        rfl
  | cons c cs => rfl

mutual
/-- From a place on, the walk visits what the recursion visits at the place and resumes behind
it. -/
lemma visitAll_eq_resume : ∀ (n : Node) (right : List Node) (around : List (Node × List Node))
    (scopes : ScopeChain) (state : σ),
    visitAll observe ⟨n, right, around⟩ scopes state =
      resume observe n right around (Node.scopesPastAll (n.scopesInside scopes) n.children)
        ((n.visitsFrom scopes).foldl (notice observe) state)
  | .mk i f sp cs, right, around, scopes, state => by
    rw [visitAll_eq_descend, Node.children, descend_eq_resume cs, Node.visitsFrom, List.foldl_cons]
/-- From the children of a node on, the walk visits what the recursion visits there and resumes
behind the node. -/
lemma descend_eq_resume : ∀ (cs : List Node) (parent : Node) (right : List Node)
    (around : List (Node × List Node)) (scopes : ScopeChain) (state : σ),
    descend observe cs parent right around scopes state =
      resume observe parent right around (Node.scopesPastAll scopes cs)
        ((Node.visitsFromAll scopes cs).foldl (notice observe) state)
  | [], parent, right, around, scopes, state => rfl
  | c :: cs, parent, right, around, scopes, state => by
    rw [descend, visitAll_eq_resume c, resume_child, ← Node.scopesPast_eq, descend_eq_resume cs,
      Node.visitsFromAll, List.foldl_append, Node.scopesPastAll]
end

lemma visitAll_root (tree : Node) (state : σ) :
    (TreeCursor.root tree).visitAll observe .empty state =
      (tree.visits.foldl observe state, tree.scopesPast .empty) := by
  have hnotice : (fun (s : σ) (v : Visit) => if decide (v.kind ≠ .other) then observe s v else s) =
      notice observe := by
    funext s v
    by_cases h : v.kind = .other <;> simp [notice, h]
  rw [root, visitAll_eq_resume, resume_root, ← Node.scopesPast_eq, Node.visits,
    List.foldl_filter, hnotice]

end TreeCursor

namespace Node

/-- A walk is a fold over the visits. -/
lemma walk_eq_foldl {σ : Type} (observe : σ → Visit → σ) (init : σ) (tree : Node) :
    tree.walk observe init = tree.visits.foldl observe init := by
  rw [walk, TreeCursor.visitAll_root]

/-! ### Open functions -/

lemma opened_scopesInside (n : Node) (s : ScopeChain) :
    (n.scopesInside s).opened = functionIds [n] ++ s.opened := by
  cases h : n.isFunction <;> simp [scopesInside, functionIds, ScopeChain.enter, h]

lemma opened_scopesBehind {n : Node} {s t : ScopeChain} (h : t.opened = (n.scopesInside s).opened) :
    (n.scopesBehind t).opened = s.opened := by
  rw [opened_scopesInside] at h
  cases hn : n.isFunction <;> simp_all [scopesBehind, functionIds, ScopeChain.exit]

mutual
/-- Behind a tree the functions are open that are open in front of it. -/
lemma opened_scopesPast : ∀ (s : ScopeChain) (n : Node), (n.scopesPast s).opened = s.opened
  | s, mk i f sp cs => by
    rw [scopesPast]
    exact opened_scopesBehind (opened_scopesPastAll _ cs)
lemma opened_scopesPastAll : ∀ (s : ScopeChain) (cs : List Node),
    (scopesPastAll s cs).opened = s.opened
  | _, [] => rfl
  | s, c :: cs => by
    rw [scopesPastAll, opened_scopesPastAll _ cs, opened_scopesPast s c]
end

lemma functions_under (p : Place) (parent : Node) (k : Nat) :
    (p.under parent k).functions = p.functions ++ functionIds [parent] :=
  functionIds_append p.around [parent]

mutual
/-- The recursion meets the places of the tree one after the other, and at each of them the open
functions are those around the place. -/
lemma map_visitsFrom : ∀ (s : ScopeChain) (n : Node),
    (n.visitsFrom s).map (fun v => (v.node, v.scopes.opened)) =
      n.places.map (fun p => (p.node, p.functions ++ s.opened))
  | s, mk i f sp cs => by
    rw [visitsFrom, places, List.map_cons, List.map_cons,
      map_visitsFromAll _ s.opened _ 0 cs (opened_scopesInside _ s)]
    rfl
lemma map_visitsFromAll : ∀ (s : ScopeChain) (outer : List FunctionId) (parent : Node) (k : Nat)
    (cs : List Node), s.opened = functionIds [parent] ++ outer →
    (visitsFromAll s cs).map (fun v => (v.node, v.scopes.opened)) =
      (placesAll parent k cs).map (fun p => (p.node, p.functions ++ outer))
  | _, _, _, _, [], _ => rfl
  | s, outer, parent, k, c :: cs, h => by
    -- a child leaves open what it found open, so its right siblings see the same functions
    rw [visitsFromAll, placesAll, List.map_append, List.map_append, List.map_map,
      map_visitsFrom s c,
      map_visitsFromAll _ outer parent (k + 1) cs ((opened_scopesPast s c).trans h)]
    congr 1
    refine List.map_congr_left fun p _ => ?_
    rw [Function.comp_apply, Place.under_node, functions_under, h, List.append_assoc]
end

lemma map_node_visitsFrom (s : ScopeChain) (n : Node) :
    (n.visitsFrom s).map Visit.node = n.places.map Place.node := by
  have h := congrArg (List.map Prod.fst) (map_visitsFrom s n)
  rw [List.map_map, List.map_map] at h
  exact h

/-! ### Linked scopes -/

/-- No function among some nodes is open, and no two of them share a number. -/
def Fresh (s : ScopeChain) (ns : List Node) : Prop := (s.opened ++ functionIds ns).Nodup

lemma Fresh.split {s : ScopeChain} {ns ms : List Node} (h : Fresh s (ns ++ ms)) :
    Fresh s ns ∧ Fresh s ms := by
  rw [Fresh, functionIds_append] at h
  constructor
  · exact h.sublist (List.Sublist.append_left (List.sublist_append_left _ _) _)
  · exact h.sublist (List.Sublist.append_left (List.sublist_append_right _ _) _)

lemma Fresh.inside {n : Node} {s : ScopeChain} {ns : List Node} (h : Fresh s (n :: ns)) :
    Fresh (n.scopesInside s) ns := by
  rw [Fresh, opened_scopesInside]
  have hperm : (s.opened ++ functionIds (n :: ns)).Perm
      (functionIds [n] ++ s.opened ++ functionIds ns) := by
    rw [← List.singleton_append, functionIds_append, ← List.append_assoc]
    exact List.perm_append_comm.append_right _
  exact hperm.nodup_iff.1 h

lemma linked_scopesInside {n : Node} {s : ScopeChain} {ns : List Node} (hs : s.Linked)
    (hn : Fresh s (n :: ns)) : (n.scopesInside s).Linked := by
  rw [scopesInside]
  split
  · next hfun =>
    refine hs.enter fun hmem => ?_
    have hid : n.id ∈ functionIds (n :: ns) := mem_functionIds List.mem_cons_self hfun
    exact (List.nodup_append.1 hn).2.2 _ hmem _ hid rfl
  · exact hs

lemma linked_scopesBehind {n : Node} {s : ScopeChain} (hs : s.Linked) :
    (n.scopesBehind s).Linked := by
  rw [scopesBehind]
  split
  · exact hs.exit
  · exact hs

mutual
/-- Where functions are entered that are not open, the scopes are linked at every visit and
behind the last one. -/
lemma linked_visitsFrom : ∀ (s : ScopeChain) (n : Node), s.Linked → Fresh s n.preorder →
    (∀ v ∈ n.visitsFrom s, v.scopes.Linked) ∧ (n.scopesPast s).Linked
  | s, mk i f sp cs, hs, hn => by
    rw [preorder] at hn
    obtain ⟨hvisits, hpast⟩ :=
      linked_visitsFromAll _ cs (linked_scopesInside hs hn) hn.inside
    rw [visitsFrom, scopesPast]
    exact ⟨List.forall_mem_cons.2 ⟨hs, hvisits⟩, linked_scopesBehind hpast⟩
lemma linked_visitsFromAll : ∀ (s : ScopeChain) (cs : List Node), s.Linked →
    Fresh s (preorderAll cs) →
    (∀ v ∈ visitsFromAll s cs, v.scopes.Linked) ∧ (scopesPastAll s cs).Linked
  | _, [], hs, _ => ⟨by simp [visitsFromAll], hs⟩
  | s, c :: cs, hs, hcs => by
    rw [preorderAll] at hcs
    obtain ⟨hvisits, hpast⟩ := linked_visitsFrom s c hs hcs.split.1
    -- behind `c` its functions are closed again, so those of `cs` are still new
    have hfresh : Fresh (c.scopesPast s) (preorderAll cs) := by
      rw [Fresh, opened_scopesPast]
      exact hcs.split.2
    obtain ⟨hvisits', hpast'⟩ := linked_visitsFromAll _ cs hpast hfresh
    rw [visitsFromAll, scopesPastAll]
    exact ⟨List.forall_mem_append.2 ⟨hvisits, hvisits'⟩, hpast'⟩
end

lemma DistinctFunctions.linked {tree : Node} (h : tree.DistinctFunctions) {v : Visit}
    (hv : v ∈ tree.visitsFrom .empty) : v.scopes.Linked :=
  (linked_visitsFrom .empty tree ScopeChain.linked_empty h).1 v hv

/-- At every visit of a tree with distinct functions, the walk outward meets the functions around
the place. -/
lemma DistinctFunctions.map_visitsFrom {tree : Node} (h : tree.DistinctFunctions) :
    (tree.visitsFrom .empty).map (fun v => (v.node, v.scopes.ancestors)) =
      tree.places.map (fun p => (p.node, p.functions)) := by
  calc (tree.visitsFrom .empty).map (fun v => (v.node, v.scopes.ancestors))
      = (tree.visitsFrom .empty).map (fun v => (v.node, v.scopes.opened)) :=
        List.map_congr_left fun v hv => by rw [(h.linked hv).ancestors_eq]
    _ = tree.places.map (fun p => (p.node, p.functions ++ [])) :=
        Node.map_visitsFrom .empty tree
    _ = tree.places.map (fun p => (p.node, p.functions)) := by simp only [List.append_nil]

lemma DistinctFunctions.map_visits {tree : Node} (h : tree.DistinctFunctions) :
    tree.visits.map (fun v => (v.node, v.scopes.ancestors)) =
      (tree.places.filter fun p => p.node.kind ≠ .other).map fun p => (p.node, p.functions) := by
  have hfilter := congrArg (List.filter fun x => decide (x.1.kind ≠ .other)) h.map_visitsFrom
  rw [List.filter_map, List.filter_map] at hfilter
  exact hfilter

/-! ### The pre-order of a tree -/

/-- The list is the pre-order of the tree: it holds the addresses inside the tree, each once, with
the nodes there and around there, and an address comes before those that continue it and before
those that turn to a later child. -/
structure IsPreorder (tree : Node) (ps : List Place) : Prop where
  node_at : ∀ p ∈ ps, tree.at? p.address = some p.node
  around_at : ∀ p ∈ ps, p.around.map some = p.address.inits.dropLast.reverse.map tree.at?
  complete : ∀ a n, tree.at? a = some n → ∃ p ∈ ps, p.address = a
  sorted : ps.Pairwise fun p q => p.address < q.address

lemma isPreorder_places (tree : Node) : IsPreorder tree tree.places where
  node_at _ hp := at?_of_mem_places hp
  around_at _ hp := around_of_mem_places hp
  complete _ _ h := by
    obtain ⟨p, hp, ha, -⟩ := exists_place_of_at? h
    exact ⟨p, hp, ha⟩
  sorted := places_sorted tree

end Node

/-! ### Subscribers -/

/-- Parties that follow a walk together do not notice each other. -/
lemma foldl_map_each {α β : Type} (f : β → α → β) (l : List α) (bs : List β) :
    l.foldl (fun bs a => bs.map fun b => f b a) bs = bs.map fun b => l.foldl f b := by
  induction l generalizing bs with
  | nil => simp
  | cons a l ih =>
    rw [List.foldl_cons, ih, List.map_map]
    rfl

/-- A party that follows a walk. -/
structure Subscriber (σ : Type) where
  /-- The kinds of the nodes that it is shown. -/
  interests : List NodeKind
  /-- What it does at a visit. -/
  visit : σ → Visit → σ
  state : σ

namespace Subscriber

variable {σ : Type}

/-- The subscriber behind a visit. -/
def deliver (s : Subscriber σ) (v : Visit) : Subscriber σ :=
  if s.interests.contains v.kind then { s with state := s.visit s.state v } else s

/-- Shows a visit to those subscribers that are interested in nodes of its kind. -/
def dispatch (subs : List (Subscriber σ)) (v : Visit) : List (Subscriber σ) :=
  subs.map fun s => s.deliver v

/-- The subscriber behind a list of visits that it is shown one after the other. -/
def shown (s : Subscriber σ) (vs : List Visit) : Subscriber σ :=
  { s with state := vs.foldl s.visit s.state }

lemma foldl_deliver (vs : List Visit) (s : Subscriber σ) :
    vs.foldl deliver s = s.shown (vs.filter fun v => s.interests.contains v.kind) := by
  induction vs generalizing s with
  | nil => rfl
  | cons v vs ih =>
    rw [List.foldl_cons, ih, List.filter_cons, deliver]
    split <;> rfl

lemma walk_dispatch (tree : Node) (subs : List (Subscriber σ)) :
    tree.walk dispatch subs =
      subs.map fun s => s.shown (tree.visits.filter fun v => s.interests.contains v.kind) := by
  rw [Node.walk_eq_foldl]
  unfold dispatch
  rw [foldl_map_each]
  exact List.map_congr_left fun s _ => foldl_deliver tree.visits s

/-- A walk shows each subscriber, in pre-order, the nodes of the kinds that it is interested in,
kind `other` excepted.  At each visit the walk outward through the scopes ends, and it meets the
function literals around the node from the inside out.  At the end no function is open. -/
theorem walk_dispatch_preorder {tree : Node} (htree : tree.DistinctFunctions)
    (subs : List (Subscriber σ)) :
    tree.walk dispatch subs =
        subs.map (fun s => s.shown (tree.visits.filter fun v => s.interests.contains v.kind)) ∧
      tree.visits.map (fun v => (v.node, v.scopes.ancestors)) =
        (tree.places.filter fun p => p.node.kind ≠ .other).map (fun p => (p.node, p.functions)) ∧
      (∀ v ∈ tree.visits, ∀ n, v.scopes.ancestorsUpTo n = v.scopes.ancestors.take n) ∧
      Node.IsPreorder tree tree.places ∧
      ((TreeCursor.root tree).visitAll dispatch .empty subs).2.opened = [] := by
  refine ⟨walk_dispatch tree subs, htree.map_visits, fun v hv n => ?_,
    Node.isPreorder_places tree, ?_⟩
  · have hlinked := htree.linked (List.mem_of_mem_filter hv)
    rw [hlinked.ancestorsUpTo_eq, hlinked.ancestors_eq]
  · rw [TreeCursor.visitAll_root, Node.opened_scopesPast]
    rfl

/-- Two subscribers on a walk over a function that holds a call and another function: one follows
calls and functions, the other identifiers. -/
theorem walk_dispatch_preorder_nested :
    let tree := Node.mk 0 .function ⟨0, 9⟩
      [.mk 1 .call ⟨1, 4⟩ [.mk 2 (.identifier "f") ⟨1, 2⟩ [], .mk 3 .arguments ⟨2, 4⟩ []],
        .mk 4 .function ⟨5, 8⟩ [.mk 5 (.identifier "x") ⟨5, 6⟩ []]]
    let record := fun (s : List (Nat × List FunctionId)) (v : Visit) =>
      s ++ [(v.node.id, v.scopes.ancestors)]
    tree.DistinctFunctions ∧
      (tree.walk dispatch
          [⟨[.callExpression, .functionLiteral], record, []⟩, ⟨[.identifier], record, []⟩]).map
          Subscriber.state =
        [[(0, []), (1, [0]), (4, [0])], [(2, [0]), (5, [4, 0])]] := by
  intro tree record
  have htree : tree.DistinctFunctions := by decide +kernel
  refine ⟨htree, ?_⟩
  rw [(walk_dispatch_preorder htree _).1]
  decide +kernel

end Subscriber

end IdentityLint.Syntax
