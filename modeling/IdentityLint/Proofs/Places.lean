import IdentityLint.Scope
import IdentityLint.Syntax.TreeCursor
import Mathlib.Data.List.Infix
import Mathlib.Data.List.Nodup
import Mathlib.Tactic.Lemma

/-!
# Places in a tree

Equal subtrees may occur in a tree more than once, so what a walk visits are not nodes but
places: an address, which says which child to take step by step from the root, together with the
node found there and the nodes around it.

`Node.places` lists the places of a tree in pre-order.  This is pinned down without reference to
the recursion: the list holds exactly the addresses inside the tree (`at?_of_mem_places`,
`exists_place_of_at?`), in strictly increasing lexicographic order (`places_sorted`), so every
place comes once and before the places inside it.  `Node.before` is the part of the pre-order in
front of a place.

Functions are told apart by their numbers.  A tree has *distinct functions* if no two function
literals in it share one; numbered trees do.
-/

namespace IdentityLint.Syntax

/-- The numbers of the function literals among some nodes. -/
def Node.functionIds (ns : List Node) : List FunctionId := (ns.filter isFunction).map id

/-- An occurrence of a node in a tree. -/
structure Place where
  /-- The children to take, from the root on. -/
  address : List Nat
  node : Node
  /-- The proper ancestors of the node, innermost first. -/
  around : List Node

namespace Place

/-- A place in the `k`-th child of `parent`, as a place in `parent`. -/
def under (parent : Node) (k : Nat) (p : Place) : Place :=
  ⟨k :: p.address, p.node, p.around ++ [parent]⟩

@[simp] lemma under_address (parent : Node) (k : Nat) (p : Place) :
    (p.under parent k).address = k :: p.address := rfl

@[simp] lemma under_node (parent : Node) (k : Nat) (p : Place) :
    (p.under parent k).node = p.node := rfl

@[simp] lemma under_around (parent : Node) (k : Nat) (p : Place) :
    (p.under parent k).around = p.around ++ [parent] := rfl

/-- The numbers of the function literals around a place, innermost first. -/
def functions (p : Place) : List FunctionId := Node.functionIds p.around

end Place

namespace Node

/-- The node at an address, if the address does not leave the tree. -/
def at? (n : Node) : List Nat → Option Node
  | [] => some n
  | k :: rest => n.children[k]?.bind fun c => c.at? rest

mutual
/-- The places of a tree in pre-order. -/
def places : Node → List Place
  | mk i f s cs => ⟨[], mk i f s cs, []⟩ :: placesAll (mk i f s cs) 0 cs
/-- The places of a tree that are in the children of its root from the `k`-th on. -/
def placesAll : Node → Nat → List Node → List Place
  | _, _, [] => []
  | parent, k, c :: cs => (places c).map (Place.under parent k) ++ placesAll parent (k + 1) cs
end

/-- The nodes in front of a place in pre-order. -/
def before (tree : Node) (p : Place) : List Node :=
  (tree.places.filter fun q => q.address < p.address).map Place.node

/-! ### Addresses -/

lemma at?_append (n : Node) (a b : List Nat) : n.at? (a ++ b) = (n.at? a).bind (·.at? b) := by
  induction a generalizing n with
  | nil => rfl
  | cons k a ih =>
    simp only [List.cons_append, at?]
    cases n.children[k]? with
    | none => rfl
    | some c => exact ih c

lemma mem_placesAll_iff {parent : Node} {k : Nat} {cs : List Node} {p : Place} :
    p ∈ placesAll parent k cs ↔
      ∃ (j : Nat) (c : Node), cs[j]? = some c ∧ ∃ q ∈ c.places, p = q.under parent (k + j) := by
  induction cs generalizing k with
  | nil => simp [placesAll]
  | cons c cs ih =>
    simp only [placesAll, List.mem_append, List.mem_map, ih]
    constructor
    · rintro (⟨q, hq, rfl⟩ | ⟨j, d, hd, q, hq, rfl⟩)
      · exact ⟨0, c, rfl, q, hq, rfl⟩
      · exact ⟨j + 1, d, hd, q, hq, by rw [Nat.add_assoc, Nat.add_comm 1 j]⟩
    · rintro ⟨j, d, hd, q, hq, rfl⟩
      cases j with
      | zero =>
        obtain rfl : c = d := by simpa using hd
        exact Or.inl ⟨q, hq, rfl⟩
      | succ j =>
        exact Or.inr ⟨j, d, hd, q, hq, by rw [Nat.add_assoc, Nat.add_comm 1 j]⟩

/-- A place is the root or lies in one of the children. -/
lemma mem_places_iff {n : Node} {p : Place} :
    p ∈ n.places ↔ p = ⟨[], n, []⟩ ∨
      ∃ (k : Nat) (c : Node), n.children[k]? = some c ∧ ∃ q ∈ c.places, p = q.under n k := by
  obtain ⟨i, f, s, cs⟩ := n
  rw [places, List.mem_cons, mem_placesAll_iff]
  simp only [Nat.zero_add, children]

lemma at?_of_mem_places {n : Node} {p : Place} (h : p ∈ n.places) :
    n.at? p.address = some p.node := by
  induction ha : p.address generalizing n p with
  | nil =>
    rcases mem_places_iff.1 h with rfl | ⟨k, c, -, q, -, rfl⟩
    · rfl
    · exact absurd ha (by simp)
  | cons k a ih =>
    rcases mem_places_iff.1 h with rfl | ⟨k', c, hc, q, hq, rfl⟩
    · exact absurd ha (by simp)
    · obtain ⟨rfl, hqa⟩ : k' = k ∧ q.address = a := by simpa using ha
      rw [at?, hc, Option.bind_some, Place.under_node]
      exact ih hq hqa

lemma exists_place_of_at? {n x : Node} {a : List Nat} (h : n.at? a = some x) :
    ∃ p ∈ n.places, p.address = a ∧ p.node = x := by
  induction a generalizing n with
  | nil =>
    obtain rfl : n = x := by simpa [at?] using h
    exact ⟨⟨[], n, []⟩, mem_places_iff.2 (Or.inl rfl), rfl, rfl⟩
  | cons k a ih =>
    obtain ⟨c, hc, hx⟩ := Option.bind_eq_some_iff.1 h
    obtain ⟨q, hq, rfl, rfl⟩ := ih hx
    exact ⟨q.under n k, mem_places_iff.2 (Or.inr ⟨k, c, hc, q, hq, rfl⟩), rfl, rfl⟩

lemma dropLast_inits_cons (k : Nat) (a : List Nat) :
    (k :: a).inits.dropLast = [] :: a.inits.dropLast.map (k :: ·) := by
  have hne : a.inits.map (k :: ·) ≠ [] := by cases a <;> simp
  rw [List.inits_cons, List.dropLast_cons_of_ne_nil hne, List.map_dropLast]

/-- The nodes around a place are those at the proper beginnings of its address. -/
lemma around_of_mem_places {n : Node} {p : Place} (h : p ∈ n.places) :
    p.around.map some = p.address.inits.dropLast.reverse.map n.at? := by
  induction ha : p.address generalizing n p with
  | nil =>
    rcases mem_places_iff.1 h with rfl | ⟨k, c, -, q, -, rfl⟩
    · rfl
    · exact absurd ha (by simp)
  | cons k a ih =>
    rcases mem_places_iff.1 h with rfl | ⟨k', c, hc, q, hq, rfl⟩
    · exact absurd ha (by simp)
    · obtain ⟨rfl, hqa⟩ : k' = k ∧ q.address = a := by simpa using ha
      have hstep : n.at? ∘ (k' :: ·) = c.at? := by
        funext b
        simp [at?, hc]
      rw [dropLast_inits_cons, List.reverse_cons, List.map_append, ← List.map_reverse,
        List.map_map, hstep, ← ih hq hqa]
      simp [at?]

/-! ### The order of the list -/

mutual
lemma map_node_places : ∀ n : Node, n.places.map Place.node = n.preorder
  | mk i f s cs => by
    rw [places, preorder, List.map_cons, map_node_placesAll _ 0 cs]
lemma map_node_placesAll : ∀ (parent : Node) (k : Nat) (cs : List Node),
    (placesAll parent k cs).map Place.node = preorderAll cs
  | _, _, [] => rfl
  | parent, k, c :: cs => by
    have hunder : Place.node ∘ Place.under parent k = Place.node := rfl
    rw [placesAll, preorderAll, List.map_append, List.map_map, hunder, map_node_places c,
      map_node_placesAll parent (k + 1) cs]
end

lemma node_mem_preorder {n : Node} {p : Place} (h : p ∈ n.places) : p.node ∈ n.preorder :=
  map_node_places n ▸ List.mem_map_of_mem h

mutual
lemma places_sorted : ∀ n : Node, n.places.Pairwise fun p q => p.address < q.address
  | mk i f s cs => by
    rw [places, List.pairwise_cons]
    refine ⟨fun q hq => ?_, placesAll_sorted _ 0 cs⟩
    obtain ⟨j, c, -, q, -, rfl⟩ := mem_placesAll_iff.1 hq
    exact List.nil_lt_cons _ _
lemma placesAll_sorted : ∀ (parent : Node) (k : Nat) (cs : List Node),
    (placesAll parent k cs).Pairwise fun p q => p.address < q.address
  | _, _, [] => List.Pairwise.nil
  | parent, k, c :: cs => by
    rw [placesAll, List.pairwise_append, List.pairwise_map]
    refine ⟨(places_sorted c).imp fun h => ?_, placesAll_sorted parent (k + 1) cs, ?_⟩
    · exact List.cons_lt_cons_iff.2 (Or.inr ⟨rfl, h⟩)
    · -- places in a later child have a larger first step
      intro p hp q hq
      obtain ⟨p, -, rfl⟩ := List.mem_map.1 hp
      obtain ⟨j, d, -, q, -, rfl⟩ := mem_placesAll_iff.1 hq
      exact List.cons_lt_cons_iff.2 (Or.inl (by omega))
end

/-- In a sorted list of places, those in front of a given one are its beginning. -/
lemma filter_lt_of_sorted {l done rest : List Place} {p : Place}
    (hsorted : l.Pairwise fun p q => p.address < q.address) (h : l = done ++ p :: rest) :
    l.filter (fun q => q.address < p.address) = done := by
  rw [h, List.pairwise_append, List.pairwise_cons] at hsorted
  obtain ⟨-, ⟨hrest, -⟩, hdone⟩ := hsorted
  have h1 : done.filter (fun q => q.address < p.address) = done := by
    refine List.filter_eq_self.2 fun q hq => ?_
    exact decide_eq_true (hdone q hq p (by simp))
  have h2 : (p :: rest).filter (fun q => q.address < p.address) = [] := by
    refine List.filter_eq_nil_iff.2 fun q hq => ?_
    rw [decide_eq_true_eq]
    rcases List.mem_cons.1 hq with rfl | hq
    · exact List.lt_irrefl _
    · exact List.lt_asymm (hrest q hq)
  rw [h, List.filter_append, h1, h2, List.append_nil]

lemma before_eq {tree : Node} {p : Place} {done rest : List Place}
    (h : tree.places = done ++ p :: rest) : tree.before p = done.map Place.node := by
  rw [before, filter_lt_of_sorted (places_sorted tree) h]

lemma before_sublist (tree : Node) (p : Place) : (tree.before p).Sublist tree.preorder := by
  rw [before, ← map_node_places]
  exact List.filter_sublist.map Place.node

lemma placesAll_append (parent : Node) (k : Nat) (cs ds : List Node) :
    placesAll parent k (cs ++ ds) =
      placesAll parent k cs ++ placesAll parent (k + cs.length) ds := by
  induction cs generalizing k with
  | nil => rfl
  | cons c cs ih =>
    rw [List.cons_append, placesAll, placesAll, ih, List.append_assoc, List.length_cons,
      Nat.add_right_comm, Nat.add_assoc]

/-- In front of a place in a child there are the node, the children in front of that child, and what
is in front of the place in the child. -/
lemma before_under {n c : Node} {k : Nat} (hc : n.children[k]? = some c) {q : Place}
    (hq : q ∈ c.places) :
    n.before (q.under n k) = n :: (preorderAll (n.children.take k) ++ c.before q) := by
  obtain ⟨done, rest, hcut⟩ := List.append_of_mem hq
  obtain ⟨hk, rfl⟩ := List.getElem?_eq_some_iff.1 hc
  have hplaces : n.places =
      (⟨[], n, []⟩ :: (placesAll n 0 (n.children.take k) ++ done.map (Place.under n k))) ++
        q.under n k :: (rest.map (Place.under n k) ++
          placesAll n (k + 1) (n.children.drop (k + 1))) := by
    have hsplit : n.places = ⟨[], n, []⟩ :: placesAll n 0 n.children := by
      cases n
      rfl
    have hchildren : placesAll n 0 n.children = placesAll n 0 (n.children.take k) ++
        placesAll n k (n.children[k] :: n.children.drop (k + 1)) := by
      rw [← List.drop_eq_getElem_cons hk]
      have happend := placesAll_append n 0 (n.children.take k) (n.children.drop k)
      rwa [List.take_append_drop, List.length_take_of_le (Nat.le_of_lt hk), Nat.zero_add]
        at happend
    rw [hsplit, hchildren, placesAll, hcut]
    simp
  rw [before_eq hplaces, before_eq hcut, List.map_cons, List.map_append, map_node_placesAll,
    List.map_map]
  rfl

/-! ### Nodes around and inside a place -/

lemma lt_append_cons (a : List Nat) (k : Nat) (b : List Nat) : a < a ++ k :: b := by
  induction a with
  | nil => exact List.nil_lt_cons _ _
  | cons j a ih => exact List.cons_lt_cons_iff.2 (Or.inr ⟨rfl, ih⟩)

lemma exists_append_of_mem_inits_dropLast {a b : List Nat} (h : a ∈ b.inits.dropLast) :
    ∃ k c, b = a ++ k :: c := by
  induction b generalizing a with
  | nil => simp at h
  | cons j b ih =>
    rw [dropLast_inits_cons] at h
    rcases List.mem_cons.1 h with rfl | h
    · exact ⟨j, b, rfl⟩
    · obtain ⟨a, ha, rfl⟩ := List.mem_map.1 h
      obtain ⟨k, c, rfl⟩ := ih ha
      exact ⟨k, c, rfl⟩

/-- The nodes around a place come before it. -/
lemma mem_before_of_mem_around {tree : Node} {p : Place} (hp : p ∈ tree.places) {x : Node}
    (hx : x ∈ p.around) : x ∈ tree.before p := by
  have hsome : some x ∈ p.address.inits.dropLast.reverse.map tree.at? := by
    rw [← around_of_mem_places hp]
    exact List.mem_map_of_mem hx
  obtain ⟨a, ha, hax⟩ := List.mem_map.1 hsome
  obtain ⟨k, b, hb⟩ := exists_append_of_mem_inits_dropLast (List.mem_reverse.1 ha)
  obtain ⟨q, hq, rfl, rfl⟩ := exists_place_of_at? hax
  refine List.mem_map_of_mem (List.mem_filter.2 ⟨hq, ?_⟩)
  rw [decide_eq_true_eq, hb]
  exact lt_append_cons _ _ _

lemma mem_preorderAll_iff {cs : List Node} {x : Node} :
    x ∈ preorderAll cs ↔ ∃ c ∈ cs, x ∈ c.preorder := by
  induction cs with
  | nil => simp [preorderAll]
  | cons c cs ih => simp [preorderAll, ih]

/-- The nodes strictly inside the node at a place come after the place. -/
lemma mem_rest_of_mem_preorderAll {tree : Node} {p : Place} {done rest : List Place}
    (h : tree.places = done ++ p :: rest) {x : Node} (hx : x ∈ preorderAll p.node.children) :
    x ∈ rest.map Place.node := by
  obtain ⟨c, hc, hxc⟩ := mem_preorderAll_iff.1 hx
  obtain ⟨k, hk⟩ := List.getElem?_of_mem hc
  rw [← map_node_places] at hxc
  obtain ⟨q, hq, rfl⟩ := List.mem_map.1 hxc
  have hat : tree.at? (p.address ++ k :: q.address) = some q.node := by
    rw [at?_append, at?_of_mem_places (h ▸ by simp : p ∈ tree.places), Option.bind_some, at?, hk,
      Option.bind_some, at?_of_mem_places hq]
  obtain ⟨r, hr, hra, hrx⟩ := exists_place_of_at? hat
  have hlt : p.address < r.address := hra ▸ lt_append_cons _ _ _
  have hsorted := places_sorted tree
  rw [h, List.pairwise_append] at hsorted
  rw [h, List.mem_append, List.mem_cons] at hr
  rcases hr with hr | rfl | hr
  · exact absurd hlt (List.lt_asymm (hsorted.2.2 r hr p (by simp)))
  · exact absurd hlt (List.lt_irrefl _)
  · exact hrx ▸ List.mem_map_of_mem hr

/-! ### Distinct functions -/

/-- No two function literals of the tree have the same number. -/
def DistinctFunctions (tree : Node) : Prop := (functionIds tree.preorder).Nodup

instance (tree : Node) : Decidable tree.DistinctFunctions :=
  inferInstanceAs (Decidable (functionIds tree.preorder).Nodup)

lemma functionIds_append (ns ms : List Node) :
    functionIds (ns ++ ms) = functionIds ns ++ functionIds ms := by
  simp [functionIds]

lemma mem_functionIds {ns : List Node} {f : Node} (hf : f ∈ ns) (hfun : f.isFunction = true) :
    f.id ∈ functionIds ns :=
  List.mem_map_of_mem (List.mem_filter.2 ⟨hf, hfun⟩)

namespace DistinctFunctions

variable {tree f g : Node}

lemma eq_of_id_eq (h : tree.DistinctFunctions) (hf : f ∈ tree.preorder) (hg : g ∈ tree.preorder)
    (hffun : f.isFunction = true) (hgfun : g.isFunction = true) (hid : f.id = g.id) : f = g :=
  List.inj_on_of_nodup_map h (List.mem_filter.2 ⟨hf, hffun⟩) (List.mem_filter.2 ⟨hg, hgfun⟩) hid

/-- A function literal stands on one side of a cut through the pre-order only. -/
lemma not_mem_of_mem (h : tree.DistinctFunctions) {ns ms : List Node}
    (hcut : tree.preorder = ns ++ ms) (hfun : f.isFunction = true) (hf : f ∈ ns) : f ∉ ms := by
  intro hf'
  rw [DistinctFunctions, hcut, functionIds_append, List.nodup_append] at h
  exact h.2.2 _ (mem_functionIds hf hfun) _ (mem_functionIds hf' hfun) rfl

end DistinctFunctions

mutual
lemma numberFrom_ids : ∀ (i : Nat) (n : Node),
    (numberFrom i n).1.preorder.map id = List.range' i n.size ∧
      (numberFrom i n).2 = i + n.size
  | i, mk _ f s cs => by
    obtain ⟨hids, hnext⟩ := numberAllFrom_ids (i + 1) cs
    rw [numberFrom, preorder, size, List.map_cons, hids, hnext, Nat.add_comm 1, List.range'_succ]
    exact ⟨rfl, by omega⟩
lemma numberAllFrom_ids : ∀ (i : Nat) (cs : List Node),
    (preorderAll (numberAllFrom i cs).1).map id = List.range' i (sizeAll cs) ∧
      (numberAllFrom i cs).2 = i + sizeAll cs
  | i, [] => ⟨rfl, rfl⟩
  | i, c :: cs => by
    obtain ⟨hids, hnext⟩ := numberFrom_ids i c
    obtain ⟨hids', hnext'⟩ := numberAllFrom_ids (numberFrom i c).2 cs
    rw [numberAllFrom, preorderAll, sizeAll, List.map_append, hids, hids', hnext', hnext,
      List.range'_append_1]
    exact ⟨rfl, by omega⟩
end

lemma distinctFunctions_numbered (n : Node) : n.numbered.DistinctFunctions := by
  have hsub : List.Sublist (functionIds n.numbered.preorder) (n.numbered.preorder.map id) :=
    List.filter_sublist.map id
  refine List.Nodup.sublist hsub ?_
  rw [numbered, (numberFrom_ids 0 n).1]
  exact List.nodup_range'

end Node

end IdentityLint.Syntax
