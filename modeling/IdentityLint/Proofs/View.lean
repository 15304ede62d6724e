import IdentityLint.Proofs.Places
import IdentityLint.Syntax.View

/-!
# What the questions about nodes mean

The answers to questions about single nodes, told by the forms of the nodes involved: which member
of an object literal binds a key, and to what; and that the nodes found in this way lie inside the
node that was asked.
-/

namespace IdentityLint.Syntax.Node

/-! ### Properties of object literals -/

/-- A member of an object literal binds a key: a pair binds it to its value, without parentheses,
and a method to itself. -/
inductive Binds (key : String) (member : Node) : Node → Prop
  | value {v : Node} (hform : member.form = .pair (some key))
      (hv : member.children.reverse.find? isPart = some v) : Binds key member v.unwrapParens
  | method (hform : member.form = .method (some key)) : Binds key member member

/-- An object literal binds a key: the first of its members that binds the key decides. -/
def BindsFirst (key : String) (object bound : Node) : Prop :=
  object.form = .object ∧ ∃ front member rest, object.children = front ++ member :: rest ∧
    Binds key member bound ∧ ∀ m ∈ front, ∀ b, ¬Binds key m b

variable {key : String} {n member bound : Node}

lemma boundTo?_eq_some_iff : boundTo? key member = some bound ↔ Binds key member bound := by
  constructor
  · intro h
    rw [boundTo?] at h
    split at h
    · next k hform =>
      split at h
      · next hk =>
        obtain ⟨v, hv, rfl⟩ := Option.map_eq_some_iff.1 h
        obtain rfl : k = key := eq_of_beq hk
        exact .value hform hv
      · cases h
    · next k hform =>
      split at h
      · next hk =>
        obtain rfl : k = key := eq_of_beq hk
        obtain rfl : member = bound := Option.some.inj h
        exact .method hform
      · cases h
    · cases h
  · intro h
    cases h with
    | value hform hv => simp [boundTo?, hform, hv]
    | method hform => simp [boundTo?, hform]

lemma boundTo?_eq_none_iff : boundTo? key member = none ↔ ∀ b, ¬Binds key member b := by
  simp only [Option.eq_none_iff_forall_ne_some, ne_eq, boundTo?_eq_some_iff]

lemma property?_eq_some_iff : n.property? key = some bound ↔ BindsFirst key n bound := by
  rw [property?, BindsFirst]
  split
  · next hform =>
    simp only [List.findSome?_eq_some_iff, boundTo?_eq_some_iff, boundTo?_eq_none_iff, hform,
      true_and]
  · next hform =>
    constructor
    · intro h
      cases h
    · rintro ⟨hobject, -⟩
      exact (hform hobject).elim

/-! ### Callees -/

lemma name?_eq_some_iff {name : String} : n.name? = some name ↔ n.form = .identifier name := by
  cases h : n.form <;> simp [name?, h]

/-- A call calls a name if its callee is an identifier. -/
lemma calleeName?_eq_some_iff {name : String} :
    n.calleeName? = some name ↔
      ∃ callee, n.callee? = some callee ∧ callee.form = .identifier name := by
  simp only [calleeName?, Option.bind_eq_some_iff, name?_eq_some_iff]

lemma find?_of_callee? {callee : Node} (h : n.callee? = some callee) :
    n.children.find? isPart = some callee := by
  rw [callee?] at h
  split at h
  · exact h
  · cases h

lemma callee?_eq_none_of_kind_ne (hn : n.kind ≠ .callExpression) : n.callee? = none := by
  cases hf : n.form <;> simp_all [callee?, kind, Form.kind]

lemma kind_eq_of_callee? {callee : Node} (h : n.callee? = some callee) :
    n.kind = .callExpression := by
  by_contra hkind
  rw [callee?_eq_none_of_kind_ne hkind] at h
  cases h

/-- The node is a call whose callee is spelled out in names. -/
def IsSpelledCall (n : Node) : Prop :=
  ∃ callee, n.callee? = some callee ∧ callee.memberChain?.isSome = true

lemma IsSpelledCall.kind_eq (h : n.IsSpelledCall) : n.kind = .callExpression := by
  obtain ⟨callee, hcallee, -⟩ := h
  exact kind_eq_of_callee? hcallee

/-! ### Parentheses -/

lemma unwrapParens_eq_self (h : n.form ≠ .parenthesized ∨ n.children = []) :
    n.unwrapParens = n := by
  obtain ⟨i, f, s, cs⟩ := n
  rcases h with h | h
  · cases f with
    | parenthesized => exact absurd rfl h
    | _ => rfl
  · obtain rfl : cs = [] := h
    cases f <;> rfl

/-! ### Nodes inside others -/

/-- Induction over trees: what holds of a node if it holds of its children holds of all nodes. -/
@[elab_as_elim]
lemma childrenInduction {motive : Node → Prop}
    (node : ∀ n : Node, (∀ c ∈ n.children, motive c) → motive n) (n : Node) : motive n :=
  node n fun c _hc => childrenInduction node c
termination_by sizeOf n
decreasing_by
  have := List.sizeOf_lt_of_mem _hc
  cases n
  simp only [children, mk.sizeOf_spec] at *
  omega

lemma mem_preorder_self (n : Node) : n ∈ n.preorder := by
  cases n
  exact List.mem_cons_self

lemma mem_preorder_iff {x : Node} :
    x ∈ n.preorder ↔ x = n ∨ x ∈ preorderAll n.children := by
  cases n
  exact List.mem_cons

lemma mem_preorder_of_mem_preorderAll {x : Node} (h : x ∈ preorderAll n.children) :
    x ∈ n.preorder := by
  cases n
  exact List.mem_cons_of_mem _ h

lemma mem_preorderAll_of_mem {c x : Node} (hc : c ∈ n.children) (hx : x ∈ c.preorder) :
    x ∈ preorderAll n.children :=
  mem_preorderAll_iff.2 ⟨c, hc, hx⟩

lemma mem_preorder_trans {x y : Node} (hx : x ∈ n.preorder) (hy : y ∈ x.preorder) :
    y ∈ n.preorder := by
  induction n using childrenInduction with
  | node n ih =>
    rcases mem_preorder_iff.1 hx with rfl | hx
    · exact hy
    · obtain ⟨c, hc, hxc⟩ := mem_preorderAll_iff.1 hx
      exact mem_preorder_of_mem_preorderAll (mem_preorderAll_of_mem hc (ih c hc hxc))

lemma unwrapParens_mem_preorder (n : Node) : n.unwrapParens ∈ n.preorder := by
  fun_induction unwrapParens n with
  | case1 i s c cs ih =>
    exact mem_preorder_of_mem_preorderAll (mem_preorderAll_of_mem List.mem_cons_self ih)
  | case2 n => exact mem_preorder_self n

lemma Binds.mem (h : Binds key member bound) : bound ∈ member.preorder := by
  cases h with
  | value hform hv =>
    have hmem := List.mem_reverse.1 (List.mem_of_find?_eq_some hv)
    exact mem_preorder_of_mem_preorderAll
      (mem_preorderAll_of_mem hmem (unwrapParens_mem_preorder _))
  | method hform => exact mem_preorder_self _

lemma BindsFirst.mem (h : BindsFirst key n bound) : bound ∈ n.preorder := by
  obtain ⟨-, front, member, rest, hchildren, hbinds, -⟩ := h
  have hmem : member ∈ n.children := by simp [hchildren]
  exact mem_preorder_of_mem_preorderAll (mem_preorderAll_of_mem hmem hbinds.mem)

lemma firstArgument?_mem {x : Node} (h : n.firstArgument? = some x) :
    ∃ args ∈ n.children, x ∈ args.children := by
  rw [firstArgument?] at h
  split at h
  · next args hargs =>
    exact ⟨args, List.mem_of_find?_eq_some hargs, List.mem_of_find?_eq_some h⟩
  · cases h

end IdentityLint.Syntax.Node
