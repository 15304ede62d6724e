import IdentityLint.Proofs.MemberChains

/-!
# Where calls begin

A parser gives the children of a node spans that lie one behind the other inside the span of the
node.  So nodes that do not contain each other begin at different bytes unless one of them is empty;
but a call begins where its callee begins, and a call may well be the callee of another.

A call whose callee is spelled out in names is different: down the first children of such a call
there are member accesses, then a name or an opening parenthesis, and no further call.  Hence of two
such calls the one that comes first in pre-order begins first (`WellSpanned.start_lt_start`).
-/

namespace IdentityLint.Syntax.Node

/-- The spans at a node are as a parser makes them. -/
structure Spanned (n : Node) : Prop where
  /-- Children do not overlap. -/
  ordered : n.children.Pairwise fun c d => c.span.stop ≤ d.span.start
  inside : ∀ c ∈ n.children, n.span.start ≤ c.span.start ∧ c.span.stop ≤ n.span.stop
  /-- A call begins with its callee. -/
  call : ∀ callee ∈ n.callee?, callee.span.start = n.span.start
  /-- A member access begins with its object. -/
  member : n.kind = .memberExpression →
    ∀ object ∈ n.children.find? isPart, object.span.start = n.span.start
  /-- What is in parentheses begins behind the opening one. -/
  parens : n.form = .parenthesized → ∀ c ∈ n.children, n.span.start < c.span.start
  /-- Identifiers are not empty and have no parts. -/
  name : n.kind = .identifier → n.children = [] ∧ n.span.start < n.span.stop

instance (n : Node) : Decidable n.Spanned :=
  decidable_of_iff
    ((n.children.Pairwise fun c d => c.span.stop ≤ d.span.start) ∧
      (∀ c ∈ n.children, n.span.start ≤ c.span.start ∧ c.span.stop ≤ n.span.stop) ∧
      (∀ callee ∈ n.callee?, callee.span.start = n.span.start) ∧
      (n.kind = .memberExpression →
        ∀ object ∈ n.children.find? isPart, object.span.start = n.span.start) ∧
      (n.form = .parenthesized → ∀ c ∈ n.children, n.span.start < c.span.start) ∧
      (n.kind = .identifier → n.children = [] ∧ n.span.start < n.span.stop))
    ⟨fun ⟨h₁, h₂, h₃, h₄, h₅, h₆⟩ => ⟨h₁, h₂, h₃, h₄, h₅, h₆⟩,
      fun ⟨h₁, h₂, h₃, h₄, h₅, h₆⟩ => ⟨h₁, h₂, h₃, h₄, h₅, h₆⟩⟩

/-- All spans of a tree are as a parser makes them. -/
def WellSpanned (tree : Node) : Prop := ∀ n ∈ tree.preorder, n.Spanned

instance (tree : Node) : Decidable tree.WellSpanned :=
  inferInstanceAs (Decidable (∀ n ∈ tree.preorder, n.Spanned))

/-! ### Inside a node -/

namespace WellSpanned

variable {n : Node}

lemma spanned (h : n.WellSpanned) : n.Spanned := h n (mem_preorder_self n)

lemma inner (h : n.WellSpanned) {x : Node} (hx : x ∈ n.preorder) : x.WellSpanned :=
  fun y hy => h y (mem_preorder_trans hx hy)

lemma child (h : n.WellSpanned) {c : Node} (hc : c ∈ n.children) : c.WellSpanned :=
  fun x hx => h x (mem_preorder_of_mem_preorderAll (mem_preorderAll_of_mem hc hx))

/-- Whatever is inside a node has its span inside the span of the node. -/
lemma bounds (h : n.WellSpanned) {x : Node} (hx : x ∈ n.preorder) :
    n.span.start ≤ x.span.start ∧ x.span.stop ≤ n.span.stop := by
  induction n using childrenInduction with
  | node n ih =>
    rcases mem_preorder_iff.1 hx with rfl | hx
    · exact ⟨Nat.le_refl _, Nat.le_refl _⟩
    · obtain ⟨c, hc, hxc⟩ := mem_preorderAll_iff.1 hx
      have hchild := h.spanned.inside c hc
      have hinner := ih c hc (h.child hc) hxc
      exact ⟨hchild.1.trans hinner.1, hinner.2.trans hchild.2⟩

/-- If a node begins with its first part, then the calls in it that do not begin later are those
in the first part that do not. -/
lemma start_lt_of_firstPart (h : n.WellSpanned) {part : Node}
    (hpart : n.children.find? isPart = some part) (hstart : part.span.start = n.span.start)
    (hfull : part.span.start < part.span.stop) {x : Node} (hx : x ∈ preorderAll n.children)
    (hxfull : x.span.start < x.span.stop)
    (hin : x ∈ part.preorder → part.span.start < x.span.start) : n.span.start < x.span.start := by
  obtain ⟨d, hd, hxd⟩ := mem_preorderAll_iff.1 hx
  have hbounds := bounds (h.child hd) hxd
  obtain ⟨-, front, back, hchildren, hfront⟩ := List.find?_eq_some_iff_append.1 hpart
  have hordered := h.spanned.ordered
  rw [hchildren, List.pairwise_append, List.pairwise_cons] at hordered
  obtain ⟨-, ⟨hback, -⟩, hacross⟩ := hordered
  rw [hchildren, List.mem_append, List.mem_cons] at hd
  rcases hd with hd | rfl | hd
  · -- what stands in front of the first part has no room for anything
    have hstop := hacross d hd part (by simp)
    have hinside := h.spanned.inside d (by simp [hchildren, hd])
    omega
  · have := hin hxd
    omega
  · have := hback d hd
    omega

/-- A node that is spelled out in names is not empty, and all calls in it begin later. -/
lemma of_memberChain? (h : n.WellSpanned) (hchain : n.memberChain?.isSome = true) :
    n.span.start < n.span.stop ∧ ∀ x ∈ n.preorder, x.kind = .callExpression →
      x.span.start < x.span.stop → n.span.start < x.span.start := by
  induction n using childrenInduction with
  | node n ih =>
    obtain ⟨i, f, s, cs⟩ := n
    -- none of the nodes with names is itself a call
    have hnode : ∀ {x : Node}, x.kind = .callExpression → f.kind ≠ .callExpression →
        x ∈ (mk i f s cs).preorder → x ∈ preorderAll cs := by
      intro x hcall hf hx
      rcases mem_preorder_iff.1 hx with rfl | hx
      · exact absurd hcall hf
      · exact hx
    cases f with
    | identifier name =>
      obtain ⟨hleaf, hfull⟩ := h.spanned.name rfl
      refine ⟨hfull, fun x hx hcall _ => ?_⟩
      obtain rfl : cs = [] := hleaf
      exact absurd (hnode hcall (by simp [Form.kind]) hx) (by simp [preorderAll])
    | parenthesized =>
      cases cs with
      | nil =>
        rw [memberChain?_eq_none (.inr rfl) (by simp [form]) (by simp [form])] at hchain
        cases hchain
      | cons c cs =>
        have hbehind := h.spanned.parens rfl
        have hc : c ∈ (mk i .parenthesized s (c :: cs)).children := List.mem_cons_self
        obtain ⟨hfull, -⟩ := ih c hc (h.child hc) hchain
        refine ⟨?_, fun x hx hcall _ => ?_⟩
        · have hopen := hbehind c hc
          have hinside := h.spanned.inside c hc
          omega
        · obtain ⟨d, hd, hxd⟩ :=
            mem_preorderAll_iff.1 (hnode hcall (by simp [Form.kind]) hx)
          exact (hbehind d hd).trans_le (bounds (h.child hd) hxd).1
    | member property =>
      rw [memberChain?_of_member rfl] at hchain
      cases property with
      | none => cases hchain
      | some p =>
        rw [Option.bind_some, Option.isSome_bind] at hchain
        obtain ⟨object, hobject, hspelled⟩ := (Option.any_eq_true _ _).1 hchain
        rw [Option.isSome_map] at hspelled
        have hmem : object ∈ cs := List.mem_of_find?_eq_some hobject
        have hstart := h.spanned.member rfl object hobject
        obtain ⟨hfull, hcalls⟩ := ih object hmem (h.child hmem) hspelled
        refine ⟨?_, fun x hx hcall hxfull => ?_⟩
        · have hinside := h.spanned.inside object hmem
          omega
        · exact h.start_lt_of_firstPart hobject hstart hfull
            (hnode hcall (by simp [Form.kind]) hx) hxfull fun hin => hcalls x hin hcall hxfull
    | _ =>
      rw [memberChain?_eq_none (.inl (by simp [form])) (by simp [form]) (by simp [form])] at hchain
      cases hchain

/-! ### Spelled calls -/

/-- A spelled call is not empty. -/
lemma start_lt_stop (h : n.WellSpanned) (hn : n.IsSpelledCall) : n.span.start < n.span.stop := by
  obtain ⟨callee, hcallee, hchain⟩ := hn
  have hmem := List.mem_of_find?_eq_some (find?_of_callee? hcallee)
  have hstart := h.spanned.call callee hcallee
  have hinside := h.spanned.inside callee hmem
  obtain ⟨hfull, -⟩ := (h.child hmem).of_memberChain? hchain
  omega

/-- The spelled calls inside a spelled call begin later. -/
lemma start_lt_of_mem (h : n.WellSpanned) (hn : n.IsSpelledCall) {x : Node}
    (hx : x ∈ preorderAll n.children) (hspelled : x.IsSpelledCall) :
    n.span.start < x.span.start := by
  have hxfull : x.span.start < x.span.stop :=
    (h.inner (mem_preorder_of_mem_preorderAll hx)).start_lt_stop hspelled
  obtain ⟨callee, hcallee, hchain⟩ := hn
  have hpart := find?_of_callee? hcallee
  have hmem := List.mem_of_find?_eq_some hpart
  obtain ⟨hfull, hcalls⟩ := (h.child hmem).of_memberChain? hchain
  exact h.start_lt_of_firstPart hpart (h.spanned.call callee hcallee) hfull hx hxfull
    fun hin => hcalls x hin hspelled.kind_eq hxfull

/-- Of two spelled calls, the one that comes first in pre-order begins first. -/
lemma start_lt_start {tree : Node} (h : tree.WellSpanned) {p q : Place} (hp : p ∈ tree.places)
    (hq : q ∈ tree.places) (hlt : p.address < q.address) (hpcall : p.node.IsSpelledCall)
    (hqcall : q.node.IsSpelledCall) : p.node.span.start < q.node.span.start := by
  -- the induction follows the addresses down to the node where they part
  induction ha : p.address generalizing tree p q with
  | nil =>
    rcases mem_places_iff.1 hp with rfl | ⟨j, c, -, p, -, rfl⟩
    · rcases mem_places_iff.1 hq with rfl | ⟨k, d, hd, q, hqd, rfl⟩
      · exact absurd hlt (List.lt_irrefl _)
      · have hqin : q.node ∈ d.preorder := node_mem_preorder hqd
        have hdmem := List.mem_of_getElem? hd
        exact h.start_lt_of_mem hpcall (mem_preorderAll_of_mem hdmem hqin) hqcall
    · exact absurd ha (by simp)
  | cons j a ih =>
    rcases mem_places_iff.1 hp with rfl | ⟨j', c, hc, p, hpc, rfl⟩
    · exact absurd ha (by simp)
    · obtain ⟨rfl, hpa⟩ : j' = j ∧ p.address = a := by simpa using ha
      have hcmem := List.mem_of_getElem? hc
      have hpin : p.node ∈ c.preorder := node_mem_preorder hpc
      rcases mem_places_iff.1 hq with rfl | ⟨k, d, hd, q, hqd, rfl⟩
      · exact absurd hlt (by simp)
      · have hdmem := List.mem_of_getElem? hd
        have hqin : q.node ∈ d.preorder := node_mem_preorder hqd
        rcases List.cons_lt_cons_iff.1 hlt with hjk | ⟨rfl, hrest⟩
        · -- the places are in different children, one behind the other
          have hcd : c.span.stop ≤ d.span.start := by
            obtain ⟨hj, rfl⟩ := List.getElem?_eq_some_iff.1 hc
            obtain ⟨hk, rfl⟩ := List.getElem?_eq_some_iff.1 hd
            exact List.pairwise_iff_getElem.1 h.spanned.ordered j' k hj hk hjk
          have hpfull := ((h.child hcmem).inner hpin).start_lt_stop hpcall
          have hpbounds := (h.child hcmem).bounds hpin
          have hqbounds := (h.child hdmem).bounds hqin
          simp only [Place.under_node]
          omega
        · obtain rfl : c = d := Option.some.inj (hc.symm.trans hd)
          exact ih (p := p) (q := q) (h.child hcmem) hpc hqd hrest hpcall hqcall hpa

end WellSpanned

end IdentityLint.Syntax.Node
