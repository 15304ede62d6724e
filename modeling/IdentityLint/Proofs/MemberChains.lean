import IdentityLint.Proofs.View

/-!
# Chains of names

The chain of names that an expression spells is read off its *spine*: the expression without its
parentheses, the object of it without its parentheses, the object of that, and so on, as long as
there are accesses to members.  An expression spells a chain (`Node.Spells`) if its spine ends with
an identifier and goes there by plain names only.

The reader of chains goes along the spine, from the last name to the first.  It collects the names
that it passes, gives up where the spine is interrupted, and turns the names around at the end.  So
what it has passed ends up behind the chain of what is still in front of it
(`Node.chainBehind?_unwrapParens`), and a chain is that of the object with one more name.

Hence the reader finds exactly the chains that are spelled (`Node.memberChain?_eq_some_iff`), and it
finds none exactly if the spine is interrupted by something else (`Node.memberChain?_eq_none_iff`).
Parentheses with nothing but an expression in them can be added anywhere on the spine
(`Node.Parenthesizes`).
-/

namespace IdentityLint.Syntax.Node

variable {n n' m object : Node} {property : Option String}

/-! ### The spine of an expression -/

/-- A node accesses a member of an object; the property is `none` when it is a private name. -/
structure Accesses (n object : Node) (property : Option String) : Prop where
  form : n.form = .member property
  object : n.children.find? isPart = some object

/-- An expression spells a chain of names: an identifier spells its name, and an access by a plain
name spells that name behind the chain of its object, parentheses aside. -/
inductive Spells : Node → List String → Prop
  | identifier {n : Node} {x : String} (hform : n.unwrapParens.form = .identifier x) : Spells n [x]
  | access {n object : Node} {name : String} {chain : List String}
      (haccess : n.unwrapParens.Accesses object (some name)) (hobject : Spells object chain) :
      Spells n (chain ++ [name])

/-- A node is on the spine of an expression: it is the expression without its parentheses, or it is
on the spine of the object. -/
inductive OnSpine : Node → Node → Prop
  | top (n : Node) : OnSpine n n.unwrapParens
  | object {n object m : Node} {property : Option String}
      (haccess : n.unwrapParens.Accesses object property) (hm : OnSpine object m) : OnSpine n m

/-- A node interrupts a chain: it is neither an identifier nor an access by a plain name. -/
structure Interrupts (m : Node) : Prop where
  not_identifier : ∀ x, m.form ≠ .identifier x
  not_access : ∀ object name, ¬m.Accesses object (some name)

/-- An expression, and the same expression with parentheses added: any number of them, around
itself, inside parentheses that it has already, and around objects on its spine.  Nothing but an
expression stands in the parentheses that are added.  Numbers and places may change, and so may all
that is not on the spine. -/
inductive Parenthesizes : Node → Node → Prop
  | same {n n' : Node} (hform : n'.form = n.form) (hchildren : n'.children = n.children) :
      Parenthesizes n n'
  | around {n n' : Node} (id : Nat) (span : Span) (h : Parenthesizes n n') :
      Parenthesizes n (mk id .parenthesized span [n'])
  | inside {n n' c c' : Node} {rest rest' : List Node} (hform : n.form = .parenthesized)
      (hform' : n'.form = .parenthesized) (hchildren : n.children = c :: rest)
      (hchildren' : n'.children = c' :: rest') (h : Parenthesizes c c') : Parenthesizes n n'
  | object {n n' object object' : Node} {property : Option String}
      (haccess : n.Accesses object property) (haccess' : n'.Accesses object' property)
      (h : Parenthesizes object object') : Parenthesizes n n'

lemma Spells.ne_nil {chain : List String} (h : n.Spells chain) : chain ≠ [] := by
  cases h <;> simp

/-! ### Induction along the spine -/

lemma Accesses.sizeOf_lt (h : n.unwrapParens.Accesses object property) :
    sizeOf object < sizeOf n :=
  (sizeOf_lt_of_find? h.object).trans_le (sizeOf_unwrapParens_le n)

/-- What holds of an expression if it holds of its object holds of all expressions. -/
@[elab_as_elim]
lemma spineInduction {motive : Node → Prop}
    (step : ∀ n, (∀ object property, n.unwrapParens.Accesses object property → motive object) →
      motive n) (n : Node) : motive n :=
  step n fun object _ _haccess => spineInduction step object
termination_by sizeOf n
decreasing_by exact _haccess.sizeOf_lt

/-- The top of the spine is an identifier, or an access by a plain name, or it interrupts. -/
lemma top_cases (n : Node) :
    (∃ x, n.unwrapParens.form = .identifier x) ∨
      (∃ object name, n.unwrapParens.Accesses object (some name)) ∨ n.unwrapParens.Interrupts := by
  by_cases hidentifier : ∃ x, n.unwrapParens.form = .identifier x
  · exact .inl hidentifier
  · by_cases haccess : ∃ object name, n.unwrapParens.Accesses object (some name)
    · exact .inr (.inl haccess)
    · exact .inr (.inr ⟨not_exists.1 hidentifier, fun object name h => haccess ⟨object, name, h⟩⟩)

/-! ### The steps of the reader -/

section Steps

variable {names : List String}

lemma chainBehind?_of_identifier {x : String} (h : n.form = .identifier x) :
    chainBehind? names n = some (x :: names.reverse) := by
  unfold chainBehind?
  simp [h]

/-- At an access the reader passes the property and goes on with the object. -/
lemma Accesses.chainBehind?_eq (h : n.Accesses object property) :
    chainBehind? names n =
      property.bind fun name => chainBehind? (names ++ [name]) object.unwrapParens := by
  rw [chainBehind?, h.form]
  cases property with
  | none => rfl
  | some name =>
    dsimp only
    split
    · next hnone => cases hnone.symm.trans h.object
    · next found hfound =>
      obtain rfl : found = object := Option.some.inj (hfound.symm.trans h.object)
      rfl

lemma Interrupts.chainBehind?_eq (h : n.Interrupts) : chainBehind? names n = none := by
  rw [chainBehind?]
  split
  · rfl
  · next name hform =>
    split
    · rfl
    · next object hobject => exact absurd ⟨hform, hobject⟩ (h.not_access object name)
  · next x hform => exact absurd hform (h.not_identifier x)
  · rfl

/-- The names passed so far are put behind the chain of what stands in front of them, the other way
round. -/
lemma chainBehind?_unwrapParens (n : Node) (names : List String) :
    chainBehind? names n.unwrapParens = n.memberChain?.map (· ++ names.reverse) := by
  -- the induction follows the spine, and the names grow on the way
  induction n using spineInduction generalizing names with
  | step n ih =>
    rw [memberChain?]
    obtain ⟨x, hx⟩ | ⟨object, name, haccess⟩ | hinterrupts := n.top_cases
    · rw [chainBehind?_of_identifier hx, chainBehind?_of_identifier hx]
      rfl
    · rw [haccess.chainBehind?_eq, haccess.chainBehind?_eq, Option.bind_some, Option.bind_some,
        ih object _ haccess, ih object _ haccess]
      cases object.memberChain? <;> simp
    · rw [hinterrupts.chainBehind?_eq, hinterrupts.chainBehind?_eq]
      rfl

end Steps

/-! ### The reader of chains -/

lemma memberChain?_of_identifier {x : String} (h : n.unwrapParens.form = .identifier x) :
    n.memberChain? = some [x] := by
  rw [memberChain?, chainBehind?_of_identifier h]
  rfl

/-- An access has a chain if its object has one and the property is a plain name. -/
lemma Accesses.memberChain?_eq (h : n.unwrapParens.Accesses object property) :
    n.memberChain? = property.bind fun name => object.memberChain?.map (· ++ [name]) := by
  rw [memberChain?, h.chainBehind?_eq]
  simp only [chainBehind?_unwrapParens, List.nil_append, List.reverse_singleton]

lemma Interrupts.memberChain?_eq (h : n.unwrapParens.Interrupts) : n.memberChain? = none :=
  h.chainBehind?_eq

/-- The reader looks at the top of the spine and goes on with the object. -/
lemma memberChain?_eq_some_step_iff {chain : List String} :
    n.memberChain? = some chain ↔
      (∃ x, n.unwrapParens.form = .identifier x ∧ chain = [x]) ∨
        ∃ object name front, n.unwrapParens.Accesses object (some name) ∧
          object.memberChain? = some front ∧ chain = front ++ [name] := by
  constructor
  · intro h
    obtain ⟨x, hx⟩ | ⟨object, name, haccess⟩ | hinterrupts := n.top_cases
    · rw [memberChain?_of_identifier hx] at h
      exact .inl ⟨x, hx, (Option.some.inj h).symm⟩
    · rw [haccess.memberChain?_eq, Option.bind_some] at h
      obtain ⟨front, hfront, rfl⟩ := Option.map_eq_some_iff.1 h
      exact .inr ⟨object, name, front, haccess, hfront, rfl⟩
    · rw [hinterrupts.memberChain?_eq] at h
      cases h
  · rintro (⟨x, hx, rfl⟩ | ⟨object, name, front, haccess, hfront, rfl⟩)
    · exact memberChain?_of_identifier hx
    · rw [haccess.memberChain?_eq, Option.bind_some, hfront, Option.map_some]

/-- The reader finds the chains that are spelled. -/
lemma memberChain?_eq_some_iff {chain : List String} :
    n.memberChain? = some chain ↔ n.Spells chain := by
  constructor
  · intro h
    induction n using spineInduction generalizing chain with
    | step n ih =>
      rcases memberChain?_eq_some_step_iff.1 h with
        ⟨x, hx, rfl⟩ | ⟨object, name, front, haccess, hfront, rfl⟩
      · exact .identifier hx
      · exact .access haccess (ih object _ haccess hfront)
  · intro h
    induction h with
    | identifier hform => exact memberChain?_eq_some_step_iff.2 (.inl ⟨_, hform, rfl⟩)
    | access haccess _ ih =>
      exact memberChain?_eq_some_step_iff.2 (.inr ⟨_, _, _, haccess, ih, rfl⟩)

/-- The reader finds no chain where the spine is interrupted, and only there. -/
lemma memberChain?_eq_none_iff : n.memberChain? = none ↔ ∃ m, n.OnSpine m ∧ m.Interrupts := by
  constructor
  · intro h
    induction n using spineInduction with
    | step n ih =>
      obtain ⟨x, hx⟩ | ⟨object, name, haccess⟩ | hinterrupts := n.top_cases
      · rw [memberChain?_of_identifier hx] at h
        cases h
      · rw [haccess.memberChain?_eq, Option.bind_some, Option.map_eq_none_iff] at h
        obtain ⟨m, hm, hinterrupts⟩ := ih object _ haccess h
        exact ⟨m, .object haccess hm, hinterrupts⟩
      · exact ⟨_, .top n, hinterrupts⟩
  · rintro ⟨m, hm, hinterrupts⟩
    induction hm with
    | top n => exact hinterrupts.memberChain?_eq
    | object haccess _ ih =>
      rw [haccess.memberChain?_eq, ih hinterrupts]
      simp

/-! ### Parentheses -/

/-- Parentheses have the chain of the first thing in them. -/
lemma memberChain?_of_children {c : Node} {rest : List Node} (hform : n.form = .parenthesized)
    (hchildren : n.children = c :: rest) : n.memberChain? = c.memberChain? := by
  obtain ⟨id, form, span, children⟩ := n
  obtain rfl : form = .parenthesized := hform
  obtain rfl : children = c :: rest := hchildren
  rfl

/-- A bare name is a chain of one name. -/
lemma memberChain?_of_name {x : String} (h : n.form = .identifier x) :
    n.memberChain? = some [x] := by
  refine memberChain?_of_identifier ?_
  rwa [unwrapParens_eq_self (.inl (by simp [h]))]

/-- An access is no parentheses. -/
lemma Accesses.unwrapParens (h : n.Accesses object property) :
    n.unwrapParens.Accesses object property := by
  rwa [unwrapParens_eq_self (.inl (by simp [h.form]))]

/-- The chain of an access, whether it has an object or not. -/
lemma memberChain?_of_member (h : n.form = .member property) :
    n.memberChain? = property.bind fun name =>
      (n.children.find? isPart).bind fun object => object.memberChain?.map (· ++ [name]) := by
  cases hobject : n.children.find? isPart with
  | none =>
    have hinterrupts : n.Interrupts :=
      ⟨by simp [h], fun object name haccess => by cases hobject.symm.trans haccess.object⟩
    have hself := unwrapParens_eq_self (n := n) (.inl (by simp [h]))
    rw [Interrupts.memberChain?_eq (by rwa [hself])]
    cases property <;> rfl
  | some object => exact (Accesses.mk h hobject).unwrapParens.memberChain?_eq

/-- Nothing but parentheses, accesses and identifiers has a chain. -/
lemma memberChain?_eq_none (hparens : n.form ≠ .parenthesized ∨ n.children = [])
    (hmember : ∀ property, n.form ≠ .member property) (hname : ∀ x, n.form ≠ .identifier x) :
    n.memberChain? = none := by
  have hinterrupts : n.Interrupts :=
    ⟨hname, fun _ name haccess => hmember (some name) haccess.form⟩
  exact Interrupts.memberChain?_eq (by rwa [unwrapParens_eq_self hparens])

/-- A chain depends neither on the number nor on the place of a node. -/
lemma memberChain?_congr (hform : n'.form = n.form) (hchildren : n'.children = n.children) :
    n'.memberChain? = n.memberChain? := by
  obtain ⟨id, form, span, children⟩ := n
  obtain ⟨id', form', span', children'⟩ := n'
  obtain rfl : form' = form := hform
  obtain rfl : children' = children := hchildren
  have hbehind : chainBehind? [] (mk id' form' span' children') =
      chainBehind? [] (mk id form' span children') := by
    rw [chainBehind?, chainBehind?]
    rfl
  cases form' with
  | parenthesized =>
    cases children' with
    | nil => exact hbehind
    | cons c rest => rfl
  | _ => exact hbehind

/-- Parentheses on the spine do not change the chain. -/
lemma Parenthesizes.memberChain?_eq (h : n.Parenthesizes n') :
    n'.memberChain? = n.memberChain? := by
  induction h with
  | same hform hchildren => exact memberChain?_congr hform hchildren
  | around id span _ ih => rw [memberChain?_of_children rfl rfl, ih]
  | inside hform hform' hchildren hchildren' _ ih =>
    rw [memberChain?_of_children hform hchildren, memberChain?_of_children hform' hchildren', ih]
  | object haccess haccess' _ ih =>
    rw [haccess.unwrapParens.memberChain?_eq, haccess'.unwrapParens.memberChain?_eq, ih]

/-- The chain of an expression.  It is `[x]` if the expression is an identifier `x`, parentheses
aside, and the chain of the object with one more name behind it if it is an access by a plain name;
so the reader finds exactly the chains that are spelled.  It finds none if anything else stands on
the spine, and only then.  Parentheses added on the spine do not change it, and that of an access
has at least two names. -/
theorem memberChain?_reads_spine (n : Node) :
    (∀ chain, n.memberChain? = some chain ↔ n.Spells chain) ∧
      (∀ chain, n.memberChain? = some chain ↔
        (∃ x, n.unwrapParens.form = .identifier x ∧ chain = [x]) ∨
          ∃ object name front, n.unwrapParens.Accesses object (some name) ∧
            object.memberChain? = some front ∧ chain = front ++ [name]) ∧
      (n.memberChain? = none ↔ ∃ m, n.OnSpine m ∧ m.Interrupts) ∧
      (∀ n', n.Parenthesizes n' → n'.memberChain? = n.memberChain?) ∧
      ∀ chain, n.kind = .memberExpression → n.memberChain? = some chain → 2 ≤ chain.length := by
  refine ⟨fun chain => memberChain?_eq_some_iff, fun chain => memberChain?_eq_some_step_iff,
    memberChain?_eq_none_iff, fun n' h => h.memberChain?_eq, fun chain hkind hchain => ?_⟩
  have hunwrapped : n.unwrapParens = n := by
    fun_cases unwrapParens n with
    | case1 => cases hkind
    | case2 => rfl
  rcases memberChain?_eq_some_step_iff.1 hchain with
    ⟨x, hx, -⟩ | ⟨object, name, front, -, hfront, rfl⟩
  · rw [hunwrapped] at hx
    rw [kind, hx] at hkind
    cases hkind
  · have hpos := List.length_pos_of_ne_nil (memberChain?_eq_some_iff.1 hfront).ne_nil
    rw [List.length_append, List.length_singleton]
    omega

/-- The chain of `a.b.c` is that of `((a).b).c`, and the chain of `this.b.c` is interrupted. -/
theorem memberChain?_reads_spine_parenthesized :
    let access (object : Node) (name : String) : Node := mk 0 (.member (some name)) ⟨0, 0⟩ [object]
    let parens (inner : Node) : Node := mk 0 .parenthesized ⟨0, 0⟩ [inner]
    let a : Node := mk 0 (.identifier "a") ⟨0, 0⟩ []
    let this : Node := mk 0 .other ⟨0, 0⟩ []
    let plain := access (access a "b") "c"
    let dressed := access (parens (access (parens a) "b")) "c"
    let broken := access (access this "b") "c"
    (plain.kind = .memberExpression ∧ plain.memberChain? = some ["a", "b", "c"] ∧
      plain.Spells ["a", "b", "c"] ∧ 2 ≤ ["a", "b", "c"].length) ∧
    (plain.Parenthesizes dressed ∧ dressed.memberChain? = plain.memberChain?) ∧
    (broken.OnSpine this ∧ this.Interrupts ∧ broken.memberChain? = none) := by
  intro access parens a this plain dressed broken
  obtain ⟨hspells, -, -, hparens, hlength⟩ := memberChain?_reads_spine plain
  obtain ⟨-, -, hnone, -⟩ := memberChain?_reads_spine broken
  have hchain : plain.memberChain? = some ["a", "b", "c"] := by decide +kernel
  have hdressed : plain.Parenthesizes dressed := by
    refine .object ⟨rfl, rfl⟩ ⟨rfl, rfl⟩ (.around 0 _ (.object ⟨rfl, rfl⟩ ⟨rfl, rfl⟩ ?_))
    exact .around 0 _ (.same rfl rfl)
  have houter : broken.unwrapParens.Accesses (access this "b") (some "c") := ⟨rfl, rfl⟩
  have hinner : (access this "b").unwrapParens.Accesses this (some "b") := ⟨rfl, rfl⟩
  have hspine : broken.OnSpine this := .object houter (.object hinner (.top this))
  have hthis : this.Interrupts :=
    ⟨fun _ h => Form.noConfusion h, fun _ _ h => Form.noConfusion h.form⟩
  exact ⟨⟨rfl, hchain, (hspells _).1 hchain, hlength _ rfl hchain⟩,
    ⟨hdressed, hparens _ hdressed⟩, hspine, hthis, hnone.2 ⟨this, hspine, hthis⟩⟩

end IdentityLint.Syntax.Node
