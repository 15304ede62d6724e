import IdentityLint.Analyzer
import IdentityLint.Proofs.Sites

/-!
# Where imports stand

The rules read a file once, so an import is known only behind its statement.  Here a tree is
compared with the tree in which some children of the root, such as the import statements, are moved
to the front.

A call is judged alike in both trees if its name is bound in front of it, provided that no name is
bound twice (`Node.lastBinding?_hoist`).  Otherwise it goes unnoticed where it stands and is noticed
behind the imports.
-/

namespace IdentityLint

open Syntax

namespace Syntax.Node

/-! ### Moving children to the front -/

section Hoist

variable (top : Node → Bool) (n : Node)

/-- The children of a node with their indices, those selected by `top` first. -/
def hoistOrder : List (Node × Nat) :=
  n.children.zipIdx.filter (top ·.1) ++ n.children.zipIdx.filter (!top ·.1)

/-- The node with the children selected by `top` moved to the front. -/
def hoist : Node := mk n.id n.form n.span ((n.hoistOrder top).map Prod.fst)

/-- The places of a tree, and where they are when the children selected by `top` have been moved to
the front. -/
def moves : List (Place × Place) :=
  (⟨[], n, []⟩, ⟨[], n.hoist top, []⟩) ::
    (n.hoistOrder top).zipIdx.flatMap fun e =>
      e.1.1.places.map fun q => (q.under n e.1.2, q.under (n.hoist top) e.2)

lemma map_fst_filter_zipIdx {α : Type} (p : α → Bool) (l : List α) (k : Nat) :
    ((l.zipIdx k).filter (p ·.1)).map Prod.fst = l.filter p := by
  rw [← List.zipIdx_map_fst k l, List.filter_map, List.zipIdx_map_fst]
  rfl

lemma children_hoist :
    (n.hoist top).children = n.children.filter top ++ n.children.filter (!top ·) := by
  rw [hoist, children, hoistOrder, List.map_append, map_fst_filter_zipIdx,
    map_fst_filter_zipIdx (!top ·)]

lemma hoistOrder_perm : (n.hoistOrder top).Perm n.children.zipIdx :=
  List.filter_append_perm _ _

lemma placesAll_eq_flatMap (parent : Node) (k : Nat) (cs : List Node) :
    placesAll parent k cs =
      (cs.zipIdx k).flatMap fun e => e.1.places.map (Place.under parent e.2) := by
  induction cs generalizing k with
  | nil => rfl
  | cons c cs ih => rw [placesAll, List.zipIdx_cons, List.flatMap_cons, ih]

lemma places_eq_flatMap :
    n.places = ⟨[], n, []⟩ ::
      n.children.zipIdx.flatMap fun e => e.1.places.map (Place.under n e.2) := by
  rw [← placesAll_eq_flatMap]
  cases n
  rfl

/-- Every place of the tree is moved once. -/
lemma map_fst_moves : ((n.moves top).map Prod.fst).Perm n.places := by
  have hmoves : (n.moves top).map Prod.fst = ⟨[], n, []⟩ ::
      (n.hoistOrder top).flatMap fun e => e.1.places.map (Place.under n e.2) := by
    rw [moves, List.map_cons, List.map_flatMap]
    nth_rewrite 2 [← List.zipIdx_map_fst 0 (n.hoistOrder top)]
    simp only [List.flatMap_map, List.map_map]
    rfl
  rw [hmoves, places_eq_flatMap]
  exact ((n.hoistOrder_perm top).flatMap_right _).cons _

/-- The new places are those of the new tree, in pre-order. -/
lemma map_snd_moves : (n.moves top).map Prod.snd = (n.hoist top).places := by
  have hchildren : (n.hoist top).children = (n.hoistOrder top).map Prod.fst := rfl
  rw [moves, places_eq_flatMap, List.map_cons, List.map_flatMap, hchildren, List.zipIdx_map,
    List.flatMap_map]
  simp only [List.map_map]
  rfl

variable {top n}

lemma getElem?_of_hoistOrder {k k' : Nat} {c : Node} (h : (n.hoistOrder top)[k']? = some (c, k)) :
    n.children[k]? = some c ∧ (n.hoist top).children[k']? = some c := by
  constructor
  · have hmem := (n.hoistOrder_perm top).subset (List.mem_of_getElem? h)
    exact List.mk_mem_zipIdx_iff_getElem?.1 hmem
  · rw [hoist, children, List.getElem?_map, h]
    rfl

lemma mem_moves_iff {m : Place × Place} :
    m ∈ n.moves top ↔ m = (⟨[], n, []⟩, ⟨[], n.hoist top, []⟩) ∨
      ∃ (c : Node) (k k' : Nat), (n.hoistOrder top)[k']? = some (c, k) ∧
        ∃ q ∈ c.places, m = (q.under n k, q.under (n.hoist top) k') := by
  rw [moves, List.mem_cons, List.mem_flatMap]
  refine or_congr Iff.rfl ⟨?_, ?_⟩
  · rintro ⟨⟨⟨c, k⟩, k'⟩, he, hm⟩
    obtain ⟨q, hq, rfl⟩ := List.mem_map.1 hm
    exact ⟨c, k, k', List.mk_mem_zipIdx_iff_getElem?.1 he, q, hq, rfl⟩
  · rintro ⟨c, k, k', he, q, hq, rfl⟩
    exact ⟨((c, k), k'), List.mk_mem_zipIdx_iff_getElem?.2 he, List.mem_map.2 ⟨q, hq, rfl⟩⟩

/-- The elements of a list that come before a given one and are selected are those that come before
it among the selected ones. -/
lemma take_filter_zipIdx {α : Type} (p : α → Bool) (l : List α) {s m k : Nat} {c : α}
    (h : ((l.zipIdx s).filter (p ·.1))[m]? = some (c, k)) :
    s ≤ k ∧ (((l.zipIdx s).filter (p ·.1)).take m).map Prod.fst = (l.take (k - s)).filter p := by
  induction l generalizing s m with
  | nil => simp at h
  | cons x l ih =>
    rw [List.zipIdx_cons] at h ⊢
    cases hx : p x with
    | false =>
      have hskip : ((x, s) :: l.zipIdx (s + 1)).filter (p ·.1) =
          (l.zipIdx (s + 1)).filter (p ·.1) := by simp [hx]
      rw [hskip] at h ⊢
      obtain ⟨hle, htake⟩ := ih h
      obtain ⟨j, rfl⟩ := Nat.exists_eq_add_of_le hle
      refine ⟨by omega, ?_⟩
      have hj : s + 1 + j - s = j + 1 := by omega
      rw [htake, hj, List.take_succ_cons, List.filter_cons, hx, Nat.add_sub_cancel_left]
      rfl
    | true =>
      have hkeep : ((x, s) :: l.zipIdx (s + 1)).filter (p ·.1) =
          (x, s) :: (l.zipIdx (s + 1)).filter (p ·.1) := by simp [hx]
      rw [hkeep] at h ⊢
      cases m with
      | zero =>
        obtain ⟨rfl, rfl⟩ : x = c ∧ s = k := by simpa using h
        simp
      | succ m =>
        obtain ⟨hle, htake⟩ := ih (by simpa using h)
        obtain ⟨j, rfl⟩ := Nat.exists_eq_add_of_le hle
        refine ⟨by omega, ?_⟩
        have hj : s + 1 + j - s = j + 1 := by omega
        rw [List.take_succ_cons, List.map_cons, htake, hj, List.take_succ_cons, List.filter_cons,
          hx, Nat.add_sub_cancel_left]
        rfl

/-- In front of a child that stays behind there are, in the new tree, the children that were moved
and those of the others that were in front of it. -/
lemma take_children_hoist {k k' : Nat} {c : Node} (h : (n.hoistOrder top)[k']? = some (c, k))
    (hc : top c = false) :
    (n.hoist top).children.take k' =
      n.children.filter top ++ (n.children.take k).filter (!top ·) := by
  have hle : (n.children.zipIdx.filter (top ·.1)).length ≤ k' := by
    by_contra hlt
    rw [hoistOrder, List.getElem?_append_left (by omega)] at h
    have htop := (List.mem_filter.1 (List.mem_of_getElem? h)).2
    rw [hc] at htop
    cases htop
  rw [hoistOrder, List.getElem?_append_right hle] at h
  have htake := (take_filter_zipIdx (!top ·) n.children h).2
  rw [hoist, children, hoistOrder, ← List.map_take, List.take_append, List.take_of_length_le hle,
    List.map_append, map_fst_filter_zipIdx, htake]
  rfl

end Hoist

/-! ### Imports in front of a call -/

/-- The children selected by `top` can be moved to the front: the root is nothing but their parent,
there is no call inside of them, and no two imports of the tree bind the same name. -/
structure Movable (top : Node → Bool) (tree : Node) : Prop where
  root : tree.form = .other
  quiet : ∀ c ∈ tree.children, top c = true → ∀ x ∈ c.preorder, x.kind ≠ .callExpression
  names : ((imported tree.preorder).map Prod.fst).Nodup

variable {top : Node → Bool} {tree : Node}

lemma preorderAll_eq_flatMap (cs : List Node) : preorderAll cs = cs.flatMap preorder := by
  induction cs with
  | nil => rfl
  | cons c cs ih => rw [preorderAll, List.flatMap_cons, ih]

lemma preorder_eq_cons (n : Node) : n.preorder = n :: preorderAll n.children := by
  cases n
  rfl

lemma preorderAll_hoist_perm (top : Node → Bool) (n : Node) :
    (preorderAll (n.hoist top).children).Perm (preorderAll n.children) := by
  rw [children_hoist, preorderAll_eq_flatMap, preorderAll_eq_flatMap]
  exact (List.filter_append_perm top n.children).flatMap_right _

namespace Movable

lemma importDecl?_eq_none (h : tree.Movable top) :
    tree.importDecl? = none ∧ (tree.hoist top).importDecl? = none := by
  have hroot : (tree.hoist top).form = .other := h.root
  rw [importDecl?, importDecl?, h.root, hroot]
  exact ⟨rfl, rfl⟩

lemma isFunction_eq_false (h : tree.Movable top) :
    tree.isFunction = false ∧ (tree.hoist top).isFunction = false := by
  have hroot : (tree.hoist top).form = .other := h.root
  rw [isFunction, isFunction, kind, kind, h.root, hroot]
  exact ⟨rfl, rfl⟩

lemma names_hoist (h : tree.Movable top) :
    ((imported (tree.hoist top).preorder).map Prod.fst).Nodup := by
  have hperm : (imported (tree.hoist top).preorder).Perm (imported tree.preorder) := by
    rw [preorder_eq_cons, preorder_eq_cons tree, imported_cons_of_none h.importDecl?_eq_none.1,
      imported_cons_of_none h.importDecl?_eq_none.2]
    exact imported_perm (preorderAll_hoist_perm top tree)
  exact (hperm.map Prod.fst).nodup_iff.2 h.names

lemma distinctFunctions_hoist (h : tree.Movable top) (htree : tree.DistinctFunctions) :
    (tree.hoist top).DistinctFunctions := by
  have hperm : (functionIds (tree.hoist top).preorder).Perm (functionIds tree.preorder) := by
    rw [preorder_eq_cons, preorder_eq_cons tree, functionIds, functionIds,
      List.filter_cons_of_neg (by simp [h.isFunction_eq_false]),
      List.filter_cons_of_neg (by simp [h.isFunction_eq_false])]
    exact ((preorderAll_hoist_perm top tree).filter _).map _
  exact hperm.nodup_iff.2 htree

/-- A place in a child that stays behind comes, in the new tree, behind the imports that were moved
and behind those that it was behind already. -/
lemma mem_imported_before_hoist (h : tree.Movable top) {k k' : Nat} {c : Node}
    (hk : (tree.hoistOrder top)[k']? = some (c, k)) (hc : top c = false) {q : Place}
    (hq : q ∈ c.places) {e : String × Binding} :
    e ∈ imported ((tree.hoist top).before (q.under (tree.hoist top) k')) ↔
      e ∈ imported (preorderAll (tree.children.filter top)) ∨
        e ∈ imported (tree.before (q.under tree k)) := by
  obtain ⟨hchild, hchild'⟩ := getElem?_of_hoistOrder hk
  rw [before_under hchild hq, before_under hchild' hq,
    imported_cons_of_none h.importDecl?_eq_none.1, imported_cons_of_none h.importDecl?_eq_none.2,
    take_children_hoist hk hc]
  simp only [imported_append, List.mem_append, mem_imported_preorderAll, List.mem_filter]
  constructor
  · rintro (⟨d, hd | ⟨hd, -⟩, he⟩ | he)
    · exact .inl ⟨d, hd, he⟩
    · exact .inr (.inl ⟨d, hd, he⟩)
    · exact .inr (.inr he)
  · rintro (⟨d, hd, he⟩ | ⟨d, hd, he⟩ | he)
    · exact .inl ⟨d, .inl hd, he⟩
    · -- an import in front was either moved, or it stays in front
      cases htop : top d with
      | true => exact .inl ⟨d, .inl ⟨List.mem_of_mem_take hd, htop⟩, he⟩
      | false => exact .inl ⟨d, .inr ⟨hd, by simp [htop]⟩, he⟩
    · exact .inr he

/-- Where a call moves to. -/
lemma exists_of_mem_moves (h : tree.Movable top) {m : Place × Place} (hm : m ∈ tree.moves top)
    (hcall : m.1.node.kind = .callExpression) :
    ∃ (c : Node) (k k' : Nat), (tree.hoistOrder top)[k']? = some (c, k) ∧ top c = false ∧
      ∃ q ∈ c.places, m = (q.under tree k, q.under (tree.hoist top) k') := by
  rcases mem_moves_iff.1 hm with rfl | ⟨c, k, k', hk, q, hq, rfl⟩
  · rw [kind, h.root] at hcall
    cases hcall
  · refine ⟨c, k, k', hk, ?_, q, hq, rfl⟩
    rw [← Bool.not_eq_true]
    intro hc
    have hchild := List.mem_of_getElem? (getElem?_of_hoistOrder hk).1
    exact h.quiet c hchild hc q.node (node_mem_preorder hq) hcall

/-- A name stands for the same in both trees if it is bound in front of the call. -/
lemma lastBinding?_hoist (h : tree.Movable top) {m : Place × Place} (hm : m ∈ tree.moves top)
    (hcall : m.1.node.kind = .callExpression) {P : Binding → Prop} [DecidablePred P]
    {name : String} {b : Binding} :
    lastBinding? P (tree.before m.1) name = some b ↔
      lastBinding? P ((tree.hoist top).before m.2) name = some b ∧
        name ∈ (imported (tree.before m.1)).map Prod.fst := by
  have hsub := imported_sublist (tree.before_sublist m.1)
  have hsub' := imported_sublist ((tree.hoist top).before_sublist m.2)
  rw [lastBinding?_eq_some_iff (h.names.sublist (hsub.map _)),
    lastBinding?_eq_some_iff (h.names_hoist.sublist (hsub'.map _))]
  obtain ⟨c, k, k', hk, hc, q, hq, rfl⟩ := h.exists_of_mem_moves hm hcall
  have hin : ∀ e, e ∈ imported (tree.before (q.under tree k)) →
      e ∈ imported ((tree.hoist top).before (q.under (tree.hoist top) k')) :=
    fun e he => (h.mem_imported_before_hoist hk hc hq).2 (.inr he)
  constructor
  · rintro ⟨hmem, hb⟩
    exact ⟨⟨hin _ hmem, hb⟩, List.mem_map_of_mem hmem⟩
  · rintro ⟨⟨hmem, hb⟩, hname⟩
    -- the binding in front of the call is the only one of its name
    obtain ⟨⟨name', b'⟩, hmem', rfl⟩ := List.mem_map.1 hname
    have hsame := List.inj_on_of_nodup_map h.names_hoist (hsub'.subset hmem)
      (hsub'.subset (hin _ hmem')) rfl
    rw [(Prod.mk.inj hsame).2] at hb ⊢
    exact ⟨hmem', hb⟩

/-- Behind the imports that were moved, all names that they bind are known. -/
lemma mem_imported_of_top (h : tree.Movable top) {m : Place × Place} (hm : m ∈ tree.moves top)
    (hcall : m.1.node.kind = .callExpression) {e : String × Binding}
    (he : e ∈ imported (tree.children.filter top)) :
    e ∈ imported ((tree.hoist top).before m.2) := by
  obtain ⟨c, k, k', hk, hc, q, hq, rfl⟩ := h.exists_of_mem_moves hm hcall
  obtain ⟨d, hd, decl, hdecl, hmem⟩ := mem_imported_iff.1 he
  have hpreorder : d ∈ preorderAll (tree.children.filter top) :=
    mem_preorderAll_iff.2 ⟨d, hd, mem_preorder_self d⟩
  refine (h.mem_imported_before_hoist hk hc hq).2 (.inl ?_)
  exact mem_imported_iff.2 ⟨d, hpreorder, decl, hdecl, hmem⟩

lemma node_eq (h : tree.Movable top) {m : Place × Place} (hm : m ∈ tree.moves top)
    (hcall : m.1.node.kind = .callExpression) : m.2.node = m.1.node := by
  obtain ⟨c, k, k', -, -, q, -, rfl⟩ := h.exists_of_mem_moves hm hcall
  rfl

lemma kind_eq {m : Place × Place} (hm : m ∈ tree.moves top) : m.2.node.kind = m.1.node.kind := by
  rcases mem_moves_iff.1 hm with rfl | ⟨c, k, k', -, q, -, rfl⟩
  · rfl
  · rfl

/-- The same functions are around a place in both trees. -/
lemma mem_around_iff (h : tree.Movable top) {m : Place × Place} (hm : m ∈ tree.moves top)
    {f : Node} (hf : f.isFunction = true) : f ∈ m.1.around ↔ f ∈ m.2.around := by
  rcases mem_moves_iff.1 hm with rfl | ⟨c, k, k', -, q, -, rfl⟩
  · rfl
  · have hne : f ≠ tree := fun heq => by simp [heq, h.isFunction_eq_false] at hf
    have hne' : f ≠ tree.hoist top := fun heq => by simp [heq, h.isFunction_eq_false] at hf
    simp [hne, hne']

end Movable

/-! ### What the rules make of it -/

end Syntax.Node

/-- The call at a place calls a bare name that some import in front of the place binds. -/
def NamedInFront (tree : Node) (p : Place) : Prop :=
  ∃ callee name, p.node.callee? = some callee ∧ callee.form = .identifier name ∧
    name ∈ (imported (tree.before p)).map Prod.fst

/-- The call at a place calls a bare name, and of the imports in front of the place that are
followed the last one of the name binds it to `b`. -/
def Resolves (follows : Binding → Prop) [DecidablePred follows] (tree : Node) (p : Place)
    (callee : Node) (b : Binding) : Prop :=
  ∃ name, p.node.callee? = some callee ∧ callee.form = .identifier name ∧
    lastBinding? follows (tree.before p) name = some b

section Resolves

variable {follows : Binding → Prop} [DecidablePred follows] {tree : Node} {p : Place}
  {callee : Node} {b : Binding}

lemma Resolves.kind_eq (h : Resolves follows tree p callee b) :
    p.node.kind = .callExpression := by
  obtain ⟨name, hcallee, -⟩ := h
  exact Node.kind_eq_of_callee? hcallee

lemma handlerOf_iff_resolves {c : Conventions} {f : Node} :
    HandlerOf c tree p f ↔ ∃ callee b, Resolves (IsWrapper c) tree p callee b ∧
      ∃ definition, p.node.firstArgument? = some definition ∧
        definition.BindsFirst "handler" f := by
  constructor
  · rintro ⟨callee, name, b, definition, hcallee, hname, hb, hdef, hf⟩
    exact ⟨callee, b, ⟨name, hcallee, hname, hb⟩, definition, hdef, hf⟩
  · rintro ⟨callee, b, ⟨name, hcallee, hname, hb⟩, definition, hdef, hf⟩
    exact ⟨callee, name, b, definition, hcallee, hname, hb, hdef, hf⟩

lemma violation?_iff_resolves {c : Conventions} {severity : Severity} {file : SourceFile}
    {v : Violation} :
    RawFactory.violation? c severity file (RawFactory.tableAt c tree p) p.node = some v ↔
      ∃ callee b, Resolves (IsFactory c) tree p callee b ∧
        ∃ banned, c.banned.find? (fun e => e.raw = b.canonical) = some banned ∧
          v = RawFactory.violation severity file callee banned b.source := by
  rw [RawFactory.violation?_eq_some_iff]
  simp only [RawFactory.binding?_tableAt]
  constructor
  · rintro ⟨callee, name, b, banned, hcallee, hname, hb, hbanned, hv⟩
    exact ⟨callee, b, ⟨name, hcallee, hname, hb⟩, banned, hbanned, hv⟩
  · rintro ⟨callee, b, ⟨name, hcallee, hname, hb⟩, banned, hbanned, hv⟩
    exact ⟨callee, name, b, banned, hcallee, hname, hb, hbanned, hv⟩

end Resolves

namespace Syntax.Node.Movable

variable {top : Node → Bool} {tree : Node} {m : Place × Place}

/-- A call resolves as it does behind the imports, if its name is bound in front of it. -/
lemma resolves_iff (h : tree.Movable top) (hm : m ∈ tree.moves top) {follows : Binding → Prop}
    [DecidablePred follows] {callee : Node} {b : Binding} :
    Resolves follows tree m.1 callee b ↔
      Resolves follows (tree.hoist top) m.2 callee b ∧ NamedInFront tree m.1 := by
  constructor
  · intro hresolves
    have hcall := hresolves.kind_eq
    obtain ⟨name, hcallee, hname, hb⟩ := hresolves
    obtain ⟨hb', hfront⟩ := (h.lastBinding?_hoist hm hcall).1 hb
    exact ⟨⟨name, by rwa [h.node_eq hm hcall], hname, hb'⟩, callee, name, hcallee, hname, hfront⟩
  · rintro ⟨hresolves, callee', name', hcallee', hname', hfront⟩
    have hcall : m.1.node.kind = .callExpression := by rw [← kind_eq hm, hresolves.kind_eq]
    obtain ⟨name, hcallee, hname, hb⟩ := hresolves
    rw [h.node_eq hm hcall] at hcallee
    obtain rfl : callee = callee' := Option.some.inj (hcallee.symm.trans hcallee')
    obtain rfl : name = name' := Form.identifier.inj (hname.symm.trans hname')
    exact ⟨name, hcallee, hname, (h.lastBinding?_hoist hm hcall).2 ⟨hb, hfront⟩⟩

/-- A call of a wrapper has the handler that it has behind the imports, if the wrapper is imported
in front of the call. -/
lemma handlerOf_iff (h : tree.Movable top) (hm : m ∈ tree.moves top) {c : Conventions} {f : Node} :
    HandlerOf c tree m.1 f ↔ HandlerOf c (tree.hoist top) m.2 f ∧ NamedInFront tree m.1 := by
  rw [handlerOf_iff_resolves, handlerOf_iff_resolves]
  constructor
  · rintro ⟨callee, b, hresolves, hargument⟩
    rw [← h.node_eq hm hresolves.kind_eq] at hargument
    obtain ⟨hresolves', hfront⟩ := (h.resolves_iff hm).1 hresolves
    exact ⟨⟨callee, b, hresolves', hargument⟩, hfront⟩
  · rintro ⟨⟨callee, b, hresolves', hargument⟩, hfront⟩
    have hresolves := (h.resolves_iff hm).2 ⟨hresolves', hfront⟩
    rw [h.node_eq hm hresolves.kind_eq] at hargument
    exact ⟨callee, b, hresolves, hargument⟩

/-- A call of a factory is reported as it is behind the imports, if the factory is imported in front
of the call. -/
lemma violation?_iff (h : tree.Movable top) (hm : m ∈ tree.moves top) (c : Conventions)
    (severity : Severity) (file : SourceFile) (v : Violation) :
    RawFactory.violation? c severity file (RawFactory.tableAt c tree m.1) m.1.node = some v ↔
      RawFactory.violation? c severity file (RawFactory.tableAt c (tree.hoist top) m.2)
        m.2.node = some v ∧ NamedInFront tree m.1 := by
  rw [violation?_iff_resolves, violation?_iff_resolves]
  constructor
  · rintro ⟨callee, b, hresolves, hbanned⟩
    obtain ⟨hresolves', hfront⟩ := (h.resolves_iff hm).1 hresolves
    exact ⟨⟨callee, b, hresolves', hbanned⟩, hfront⟩
  · rintro ⟨⟨callee, b, hresolves', hbanned⟩, hfront⟩
    exact ⟨callee, b, (h.resolves_iff hm).2 ⟨hresolves', hfront⟩, hbanned⟩

/-- A place is inside a handler if it is so behind the imports, and the wrapper is imported in front
of the call that has the handler. -/
lemma inHandler_iff (h : tree.Movable top) (hm : m ∈ tree.moves top) (c : Conventions) :
    InHandler c tree m.1 ↔ ∃ f ∈ m.2.around, f.isFunction = true ∧
      ∃ w ∈ tree.moves top, HandlerOf c (tree.hoist top) w.2 f ∧ NamedInFront tree w.1 := by
  have hplaces : ∀ p, p ∈ tree.places ↔ ∃ w ∈ tree.moves top, w.1 = p := fun p => by
    rw [← (map_fst_moves top tree).mem_iff, List.mem_map]
  constructor
  · rintro ⟨f, hf, hfun, call, hcall, hhandler⟩
    obtain ⟨w, hw, rfl⟩ := (hplaces call).1 hcall
    exact ⟨f, (h.mem_around_iff hm hfun).1 hf, hfun, w, hw, (h.handlerOf_iff hw).1 hhandler⟩
  · rintro ⟨f, hf, hfun, w, hw, hhandler⟩
    exact ⟨f, (h.mem_around_iff hm hfun).2 hf, hfun, w.1, (hplaces _).2 ⟨w, hw, rfl⟩,
      (h.handlerOf_iff hw).2 hhandler⟩

/-- A lookup is reported as it is behind the imports, if the wrapper is imported in front of the
call whose handler the lookup is in. -/
lemma lookup_iff (h : tree.Movable top) (hm : m ∈ tree.moves top) (c : Conventions)
    (severity : Severity) (file : SourceFile) (v : Violation) :
    IdentityLookup.finding? c severity file tree m.1 = some v ↔
      IdentityLookup.finding? c severity file (tree.hoist top) m.2 = some v ∧
        ∃ f ∈ m.2.around, f.isFunction = true ∧ ∃ w ∈ tree.moves top,
          HandlerOf c (tree.hoist top) w.2 f ∧ NamedInFront tree w.1 := by
  rw [← h.inHandler_iff hm c]
  by_cases hcall : m.1.node.kind = .callExpression
  · have hnode := h.node_eq hm hcall
    have hlookup : IdentityLookup.IsLookup c m.2 ↔ IdentityLookup.IsLookup c m.1 := by
      rw [IdentityLookup.IsLookup, IdentityLookup.IsLookup, hnode]
    have hin : InHandler c tree m.1 → InHandler c (tree.hoist top) m.2 := by
      rw [h.inHandler_iff hm c]
      rintro ⟨f, hf, hfun, w, hw, hhandler, -⟩
      exact ⟨f, hf, hfun, w.2, map_snd_moves top tree ▸ List.mem_map_of_mem hw, hhandler⟩
    rw [IdentityLookup.finding?, IdentityLookup.finding?, Option.ite_none_right_eq_some,
      Option.ite_none_right_eq_some, IdentityLookup.Misplaced, IdentityLookup.Misplaced, hlookup,
      hnode]
    constructor
    · rintro ⟨⟨hspelled, hinside⟩, hv⟩
      exact ⟨⟨⟨hspelled, hin hinside⟩, hv⟩, hinside⟩
    · rintro ⟨⟨⟨hspelled, -⟩, hv⟩, hinside⟩
      exact ⟨⟨hspelled, hinside⟩, hv⟩
  · -- the root is a different node now, but nothing is ever reported there
    have hcall' : m.2.node.kind ≠ .callExpression := by rwa [kind_eq hm]
    rw [IdentityLookup.finding?_of_not_isLookup _ _ _ _
        (IdentityLookup.not_isLookup_of_kind_ne c hcall),
      IdentityLookup.finding?_of_not_isLookup _ _ _ _
        (IdentityLookup.not_isLookup_of_kind_ne c hcall')]
    simp

/-- Behind the imports that were moved, every call of a factory that one of them binds is
reported. -/
lemma exists_violation?_hoist (h : tree.Movable top) (hm : m ∈ tree.moves top) (c : Conventions)
    (severity : Severity) (file : SourceFile) {callee : Node} {name : String} {b : Binding}
    (hcallee : m.1.node.callee? = some callee) (hname : callee.form = .identifier name)
    (hb : (name, b) ∈ imported (tree.children.filter top)) (hfactory : IsFactory c b) :
    ∃ v, RawFactory.violation? c severity file (RawFactory.tableAt c (tree.hoist top) m.2)
      m.2.node = some v := by
  have hcall := kind_eq_of_callee? hcallee
  rw [← h.node_eq hm hcall] at hcallee
  exact (RawFactory.callsFactory_iff c severity file (tree.hoist top) m.2).1
    ⟨callee, hcallee, (name, b), h.mem_imported_of_top hm hcall hb, hname, hfactory⟩

/-- Behind the imports that were moved, every call of a wrapper that one of them binds has its
handler. -/
lemma handlerOf_hoist (h : tree.Movable top) (hm : m ∈ tree.moves top) {c : Conventions}
    {callee definition f : Node} {name : String} {b : Binding}
    (hcallee : m.1.node.callee? = some callee) (hname : callee.form = .identifier name)
    (hb : (name, b) ∈ imported (tree.children.filter top)) (hwrapper : IsWrapper c b)
    (hdefinition : m.1.node.firstArgument? = some definition)
    (hf : definition.BindsFirst "handler" f) : HandlerOf c (tree.hoist top) m.2 f := by
  have hcall := kind_eq_of_callee? hcallee
  obtain ⟨b', hb'⟩ := exists_lastBinding?_iff.2 ⟨b, h.mem_imported_of_top hm hcall hb, hwrapper⟩
  rw [HandlerOf, h.node_eq hm hcall]
  exact ⟨callee, name, b', definition, hcallee, hname, hb', hdefinition, hf⟩

end Syntax.Node.Movable

/-- A call of a raw factory is reported if it would be with the imports at the front and its own
name is imported in front of it; a lookup is reported if it would be with the imports at the front
and the call whose handler it is in comes behind the import of the wrapper.  With the imports at the
front, nothing that they bind is missed.  So moving imports to the front adds exactly the reports
that hang on a call in front of its import. -/
theorem finding?_iff_import_in_front (c : Conventions) (severity : Severity) (file : SourceFile)
    (tree : Node) (top : Node → Bool) (htree : tree.DistinctFunctions) (h : tree.Movable top) :
    let hoisted := tree.hoist top
    let factories : Rule := ⟨.rawFactory, c, severity⟩
    let lookups : Rule := ⟨.identityLookup, c, severity⟩
    (((tree.moves top).map Prod.fst).Perm tree.places ∧
        (tree.moves top).map Prod.snd = hoisted.places ∧
        ∀ m ∈ tree.moves top, m.1.node.kind = .callExpression → m.2.node = m.1.node) ∧
      (∀ m ∈ tree.moves top, ∀ v, factories.finding? file tree m.1 = some v ↔
        factories.finding? file hoisted m.2 = some v ∧ NamedInFront tree m.1) ∧
      (∀ m ∈ tree.moves top, ∀ v, lookups.finding? file tree m.1 = some v ↔
        lookups.finding? file hoisted m.2 = some v ∧
          ∃ f ∈ m.2.around, f.isFunction = true ∧ ∃ w ∈ tree.moves top,
            HandlerOf c hoisted w.2 f ∧ NamedInFront tree w.1) ∧
      (∀ m ∈ tree.moves top, ∀ callee name b, m.1.node.callee? = some callee →
        callee.form = .identifier name → (name, b) ∈ imported (tree.children.filter top) →
          (IsFactory c b → ∃ v, factories.finding? file hoisted m.2 = some v) ∧
          (IsWrapper c b → ∀ definition f, m.1.node.firstArgument? = some definition →
            definition.BindsFirst "handler" f → HandlerOf c hoisted m.2 f)) ∧
      ∀ r : Rule,
        ((Check.start r).behind file tree).found = tree.places.filterMap (r.finding? file tree) ∧
        ((Check.start r).behind file hoisted).found =
          hoisted.places.filterMap (r.finding? file hoisted) := by
  intro hoisted factories lookups
  refine ⟨⟨Node.map_fst_moves top tree, Node.map_snd_moves top tree, fun m hm => h.node_eq hm⟩,
    fun m hm v => h.violation?_iff hm c severity file v,
    fun m hm v => h.lookup_iff hm c severity file v, ?_, fun r => ⟨?_, ?_⟩⟩
  · intro m hm callee name b hcallee hname hb
    exact ⟨h.exists_violation?_hoist hm c severity file hcallee hname hb,
      fun hwrapper definition f => h.handlerOf_hoist hm hcallee hname hb hwrapper⟩
  · exact r.found_behind file htree
  · exact r.found_behind file (h.distinctFunctions_hoist htree)

/-- Of two calls on both sides of an import the second is reported; with the import at the front,
both are. -/
theorem finding?_iff_import_in_front_between :
    let tree := Node.mk 0 .other ⟨0, 12⟩
      [.mk 1 .call ⟨0, 2⟩ [.mk 2 (.identifier "q") ⟨0, 1⟩ []],
        .importing 3 ⟨2, 6⟩ "./_generated/server" "query" "q",
        .mk 4 .call ⟨6, 8⟩ [.mk 5 (.identifier "q") ⟨6, 7⟩ []]]
    let top := fun n : Node => n.kind == .importDeclaration
    let file : SourceFile := ⟨⟨"/repo/convex/notes.ts"⟩, ⟨"convex/notes.ts"⟩, ""⟩
    let r : Rule := ⟨.rawFactory, .standard, .error⟩
    let offsets := fun tree => ((Check.start r).behind file tree).found.map (·.location.offset)
    tree.DistinctFunctions ∧ tree.Movable top ∧ offsets tree = [6] ∧
      offsets (tree.hoist top) = [0, 6] ∧
      ∀ m ∈ tree.moves top, ∀ v, r.finding? file tree m.1 = some v ↔
        r.finding? file (tree.hoist top) m.2 = some v ∧ NamedInFront tree m.1 := by
  intro tree top file r offsets
  have htree : tree.DistinctFunctions := by decide +kernel
  have hmovable : tree.Movable top := ⟨rfl, by decide +kernel, by decide +kernel⟩
  obtain ⟨-, hfactories, -⟩ :=
    finding?_iff_import_in_front .standard .error file tree top htree hmovable
  exact ⟨htree, hmovable, by decide +kernel, by decide +kernel, hfactories⟩

/-- Moving an import to the front can bring up a call of a factory, and a lookup in a handler. -/
theorem import_position_matters :
    let a : Analyzer := ⟨⟨"/repo"⟩, Rule.all .standard, [], .standard⟩
    let path : Path := ⟨"/repo/convex/notes.ts"⟩
    let file : SourceFile := ⟨path, ⟨"convex/notes.ts"⟩, ""⟩
    let found := fun children =>
      ((Check.start ⟨.identityLookup, .standard, .error⟩).behind file
        (.mk 0 .other ⟨0, 50⟩ children)).found
    let call := Node.mk 1 .call ⟨0, 40⟩
      [.mk 2 (.identifier "authenticatedQuery") ⟨0, 18⟩ [],
        .mk 3 .arguments ⟨18, 40⟩
          [.mk 4 .object ⟨19, 39⟩
            [.mk 5 (.method (some "handler")) ⟨20, 38⟩
              [.mk 6 .call ⟨21, 37⟩
                [.mk 7 (.member (some "getUserIdentity")) ⟨21, 36⟩
                  [.mk 8 (.member (some "auth")) ⟨21, 29⟩
                    [.mk 9 (.identifier "ctx") ⟨21, 24⟩ []]]]]]]]
    let statement :=
      Node.importing 10 ⟨40, 50⟩ "./auth" "authenticatedQuery" "authenticatedQuery"
    a.checkSource path "q();import{query as q}from\"_generated/server\"" = [] ∧
      a.checkSource path "import{query as q}from\"_generated/server\";q()" ≠ [] ∧
      found [call, statement] = [] ∧ found [statement, call] ≠ [] := by
  decide +kernel

end IdentityLint
