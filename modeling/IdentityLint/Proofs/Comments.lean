import IdentityLint.Proofs.Sites

/-!
# Comments

A tree is freed of its comments by `Node.recast`.  Positions go with them, and so do the numbers of
nodes, except that functions are numbered anew.

Comments do not matter to the rules, with one exception: a comment right behind an opening
parenthesis hides what the parentheses hold.  Parentheses with such a comment are *covered*; to the
rules they are like any other expression.  `Node.bare` is what is left of a tree without its
comments if this is taken into account, and the verdicts depend on nothing else.

All questions that the rules ask about nodes have the same answers before and after
(`callee?_plain`, `memberChain?_plain` and so on), and the places of the two trees correspond
(`corresponds_codePlaces`).
-/

namespace IdentityLint

open Syntax

namespace Syntax.Node

/-! ### Trees without comments -/

/-- Is the node a comment, with nothing inside? -/
def isNote (n : Node) : Bool := n.form == .comment && n.children.isEmpty

/-- Is the node a pair of parentheses with a comment right behind the opening one? -/
def isCovered (n : Node) : Bool := n.form == .parenthesized && n.children.head?.any isNote

/-- The form of a node, as far as its meaning goes. -/
def plainForm (n : Node) : Form := if n.isCovered then .other else n.form

mutual
/-- The tree without comments and positions.  The other nodes get new forms, and the functions new
numbers. -/
def recast (label : Node → Form) (number : FunctionId → FunctionId) : Node → Node
  | mk i f s cs =>
    mk (if (mk i f s cs).isFunction then number i else 0) (label (mk i f s cs)) ⟨0, 0⟩
      (recastAll label number cs)
/-- The forest without comments and positions. -/
def recastAll (label : Node → Form) (number : FunctionId → FunctionId) : List Node → List Node
  | [] => []
  | c :: cs =>
    if c.isNote then recastAll label number cs
    else recast label number c :: recastAll label number cs
end

/-- The place of a function among the functions of a tree. -/
def ordinal (tree : Node) (i : FunctionId) : FunctionId := (functionIds tree.preorder).idxOf i

/-- The tree without its comments. -/
def stripped (tree : Node) : Node := tree.recast form tree.ordinal

/-- The tree without its comments, for functions that have got new numbers. -/
def plain (number : FunctionId → FunctionId) : Node → Node := recast plainForm number

/-- The tree without its comments, where covered parentheses have lost their meaning. -/
def bare (tree : Node) : Node := tree.plain tree.ordinal

/-- The places of a tree that are not at comments. -/
def codePlaces (tree : Node) : List Place := tree.places.filter (!·.node.isNote)

section Plain

variable (number : FunctionId → FunctionId) (n : Node)

lemma recastAll_eq (label : Node → Form) (cs : List Node) :
    recastAll label number cs = (cs.filter (!·.isNote)).map (recast label number) := by
  induction cs with
  | nil => rfl
  | cons c cs ih => cases h : c.isNote <;> simp [recastAll, ih, h]

@[simp] lemma form_plain : (n.plain number).form = n.plainForm := by
  cases n
  rfl

@[simp] lemma children_plain :
    (n.plain number).children = (n.children.filter (!·.isNote)).map (plain number) := by
  cases n
  exact recastAll_eq number plainForm _

lemma form_of_isCovered {n : Node} (h : n.isCovered = true) : n.form = .parenthesized := by
  rw [isCovered, Bool.and_eq_true] at h
  exact eq_of_beq h.1

lemma plainForm_eq {n : Node} (h : n.form ≠ .parenthesized) : n.plainForm = n.form := by
  rw [plainForm, if_neg (mt form_of_isCovered h)]

lemma plainForm_eq_or {n : Node} (h : n.form = .parenthesized) :
    n.plainForm = .parenthesized ∨ n.plainForm = .other := by
  rw [plainForm, h]
  split
  · exact .inr rfl
  · exact .inl rfl

/-- What does not distinguish parentheses from other expressions is not changed. -/
lemma plainForm_congr {α : Type} {g : Form → α} (hg : g .parenthesized = g .other) :
    g n.plainForm = g n.form := by
  by_cases h : n.form = .parenthesized
  · rcases plainForm_eq_or h with hplain | hplain <;> rw [hplain, h]
    exact hg.symm
  · rw [plainForm_eq h]

@[simp] lemma kind_plain : (n.plain number).kind = n.kind := by
  rw [kind, form_plain]
  exact plainForm_congr (g := Form.kind) n rfl

@[simp] lemma isFunction_plain : (n.plain number).isFunction = n.isFunction := by
  rw [isFunction, kind_plain, isFunction]

@[simp] lemma isPart_plain : (n.plain number).isPart = n.isPart := by
  rw [isPart, form_plain]
  exact plainForm_congr (g := (· != .comment)) n rfl

@[simp] lemma name?_plain : (n.plain number).name? = n.name? := by
  rw [name?, form_plain]
  exact plainForm_congr (g := fun f => (mk 0 f ⟨0, 0⟩ []).name?) n rfl

@[simp] lemma specifier?_plain : (n.plain number).specifier? = n.specifier? := by
  rw [specifier?, form_plain]
  exact plainForm_congr (g := fun f => (mk 0 f ⟨0, 0⟩ []).specifier?) n rfl

lemma id_plain {n : Node} (h : n.isFunction = true) : (n.plain number).id = number n.id := by
  cases n
  exact if_pos h

/-! ### Questions about nodes -/

variable {n} in
lemma form_of_isNote (h : n.isNote = true) : n.form = .comment ∧ n.children = [] := by
  simpa [isNote] using h

/-- A search that does not look for comments finds the same. -/
lemma find?_plain {wanted : Node → Bool} (hplain : ∀ c, wanted (c.plain number) = wanted c)
    (hnote : ∀ c, c.isNote = true → wanted c = false) (cs : List Node) :
    ((cs.filter (!·.isNote)).map (plain number)).find? wanted =
      (cs.find? wanted).map (plain number) := by
  induction cs with
  | nil => rfl
  | cons c cs ih =>
    cases h : c.isNote with
    | true => simp [h, hnote c h, ih]
    | false => cases hc : wanted c <;> simp [h, hplain, hc, ih]

lemma find?_isPart_plain (cs : List Node) :
    ((cs.filter (!·.isNote)).map (plain number)).find? isPart =
      (cs.find? isPart).map (plain number) :=
  find?_plain number (isPart_plain number)
    (fun c hc => by simp [isPart, (form_of_isNote hc).1]) cs

lemma callee?_plain : (n.plain number).callee? = n.callee?.map (plain number) := by
  rw [callee?, form_plain, children_plain, find?_isPart_plain, callee?]
  by_cases h : n.form = .parenthesized
  · rcases plainForm_eq_or h with hplain | hplain <;> rw [hplain, h] <;> rfl
  · rw [plainForm_eq h]
    cases n.form <;> rfl

lemma calleeName?_plain : (n.plain number).calleeName? = n.calleeName? := by
  rw [calleeName?, callee?_plain, calleeName?]
  cases n.callee? with
  | none => rfl
  | some callee => exact name?_plain number callee

lemma firstArgument?_plain :
    (n.plain number).firstArgument? = n.firstArgument?.map (plain number) := by
  have hplain : ∀ c : Node, ((c.plain number).form == Form.arguments) =
      (c.form == .arguments) := fun c => by
    rw [form_plain]
    exact plainForm_congr (g := (· == .arguments)) c rfl
  rw [firstArgument?, children_plain, find?_plain number hplain
    (fun c hc => by simp [(form_of_isNote hc).1]), firstArgument?]
  cases n.children.find? (fun c => c.form == .arguments) with
  | none => rfl
  | some args =>
    rw [Option.map_some, ← find?_isPart_plain, ← children_plain]

/-- The children of a form are the same, unless it is one that comments can change. -/
lemma childrenOf_plain {form : Form} (hplain : (Form.parenthesized == form) = (.other == form))
    (hnote : (Form.comment == form) = false) :
    (n.plain number).childrenOf form = (n.childrenOf form).map (plain number) := by
  rw [childrenOf, children_plain, List.filter_map, List.filter_filter, childrenOf]
  congr 1
  refine List.filter_congr fun c _ => ?_
  rw [Function.comp_apply, form_plain, plainForm_congr (g := (· == form)) c hplain]
  cases hc : c.isNote with
  | true => rw [(form_of_isNote hc).1, hnote]; rfl
  | false => exact Bool.and_true _

/-- Comments in an import statement, in its clause or in its list are passed over. -/
lemma specifiers_plain : (n.plain number).specifiers = n.specifiers := by
  rw [specifiers, childrenOf_plain number n rfl rfl, List.flatMap_map, specifiers]
  refine List.flatMap_congr fun clause _ => ?_
  rw [childrenOf_plain number clause rfl rfl, List.flatMap_map]
  refine List.flatMap_congr fun list _ => ?_
  rw [children_plain, List.filterMap_map, List.filterMap_filter]
  refine List.filterMap_congr fun entry _ => ?_
  cases hentry : entry.isNote with
  | true => rw [specifier?, (form_of_isNote hentry).1]; rfl
  | false => exact specifier?_plain number entry

@[simp] lemma importDecl?_plain : (n.plain number).importDecl? = n.importDecl? := by
  rw [importDecl?, form_plain, specifiers_plain, importDecl?]
  by_cases h : n.form = .parenthesized
  · rcases plainForm_eq_or h with hplain | hplain <;> rw [hplain, h]
  · rw [plainForm_eq h]

variable {number} in
/-- Covered parentheses have lost their meaning. -/
lemma plain_covered {c : Node} (hc : c.isNote = true) (i : Nat) (s : Span) (cs : List Node) :
    (mk i .parenthesized s (c :: cs)).plain number =
      mk 0 .other ⟨0, 0⟩ (recastAll plainForm number cs) := by
  simp [plain, recast, recastAll, plainForm, isCovered, form, children, isFunction, kind,
    Form.kind, hc]

variable {number} in
/-- Other parentheses hold the same as before. -/
lemma plain_parenthesized {c : Node} (hc : c.isNote = false) (i : Nat) (s : Span)
    (cs : List Node) :
    (mk i .parenthesized s (c :: cs)).plain number =
      mk 0 .parenthesized ⟨0, 0⟩ (c.plain number :: recastAll plainForm number cs) := by
  simp [plain, recast, recastAll, plainForm, isCovered, form, children, isFunction, kind,
    Form.kind, hc]

variable {n} in
lemma memberChain?_of_isNote (h : n.isNote = true) : n.memberChain? = none := by
  have hform := (form_of_isNote h).1
  exact memberChain?_eq_none (.inl (by simp [hform])) (by simp [hform]) (by simp [hform])

lemma memberChain?_plain : (n.plain number).memberChain? = n.memberChain? := by
  induction n using childrenInduction with
  | node n ih =>
    by_cases hparens : n.form = .parenthesized
    · obtain ⟨i, f, s, cs⟩ := n
      obtain rfl : f = .parenthesized := hparens
      cases cs with
      | nil => exact memberChain?_congr rfl rfl
      | cons c cs =>
        cases hc : c.isNote with
        | true =>
          -- the chain is followed into the comment and ends there
          rw [plain_covered hc, memberChain?_of_children (n := mk i _ s _) rfl rfl,
            memberChain?_of_isNote hc]
          exact memberChain?_eq_none (.inl (by simp [form])) (by simp [form]) (by simp [form])
        | false =>
          rw [plain_parenthesized hc, memberChain?_of_children rfl rfl,
            memberChain?_of_children (n := mk i _ s _) rfl rfl]
          exact ih c List.mem_cons_self
    · have hform : (n.plain number).form = n.form := by rw [form_plain, plainForm_eq hparens]
      cases hn : n.form with
      | identifier x => rw [memberChain?_of_name (hform.trans hn), memberChain?_of_name hn]
      | member property =>
        rw [memberChain?_of_member (hform.trans hn), memberChain?_of_member hn, children_plain,
          find?_isPart_plain]
        cases hobject : n.children.find? isPart with
        | none => rfl
        | some object =>
          have hmem : object ∈ n.children := List.mem_of_find?_eq_some hobject
          simp only [Option.map_some, Option.bind_some, ih object hmem]
      | _ =>
        rw [memberChain?_eq_none (n := n) (.inl hparens) (by simp [hn]) (by simp [hn])]
        rw [← hform] at hparens
        exact memberChain?_eq_none (.inl hparens) (by simp [hform, hn]) (by simp [hform, hn])

/-! ### Handlers -/

/-- The same functions are found behind parentheses. -/
lemma filter_unwrapParens_plain :
    (some (n.plain number).unwrapParens).filter isFunction =
      ((some n.unwrapParens).filter isFunction).map (plain number) := by
  fun_induction unwrapParens n with
  | case1 i s c cs ih =>
    cases hc : c.isNote with
    | true =>
      -- neither a comment nor covered parentheses are a function
      have hcomment := (form_of_isNote hc).1
      have hother : ∀ cs, (mk 0 .other ⟨0, 0⟩ cs).isFunction = false := fun _ => rfl
      have hnote : c.isFunction = false := by
        rw [isFunction, kind, hcomment]
        rfl
      rw [plain_covered hc, unwrapParens_eq_self (.inl (by simp [form])),
        unwrapParens_eq_self (n := c) (.inl (by simp [hcomment]))]
      simp [Option.filter, hother, hnote]
    | false =>
      rw [plain_parenthesized hc, unwrapParens]
      exact ih
  | case2 n hn =>
    have hplain : (n.plain number).unwrapParens = n.plain number := by
      refine unwrapParens_eq_self ?_
      obtain ⟨i, f, s, cs⟩ := n
      cases cs with
      | nil => exact .inr (children_plain number _)
      | cons c cs =>
        have hf : (mk i f s (c :: cs)).form ≠ .parenthesized := by
          rintro rfl
          exact hn i s c cs rfl
        exact .inl (by rwa [form_plain, plainForm_eq hf])
    rw [hplain]
    cases h : n.isFunction <;> simp [Option.filter, h]

/-- Two answers agree as far as functions go: both questions have an answer or none has, and if one
answer is a function, then the other is the same function. -/
structure Tracks (answer answer' : Option Node) : Prop where
  isSome : answer'.isSome = answer.isSome
  function : answer'.filter isFunction = (answer.filter isFunction).map (plain number)

lemma tracks_none : Tracks number none none := ⟨rfl, rfl⟩

lemma tracks_boundTo? (key : String) :
    Tracks number (boundTo? key n) (boundTo? key (n.plain number)) := by
  rw [boundTo?, boundTo?, form_plain]
  by_cases hform : n.form = .parenthesized
  · rcases plainForm_eq_or hform with hplain | hplain <;> rw [hplain, hform] <;>
      exact tracks_none number
  · rw [plainForm_eq hform, children_plain, ← List.map_reverse, ← List.filter_reverse,
      find?_isPart_plain]
    split
    · next k _ =>
      split
      · cases n.children.reverse.find? isPart with
        | none => exact tracks_none number
        | some v => exact ⟨rfl, filter_unwrapParens_plain number v⟩
      · exact tracks_none number
    · next k _ =>
      split
      · refine ⟨rfl, ?_⟩
        cases h : n.isFunction <;> simp [Option.filter, h]
      · exact tracks_none number
    · exact tracks_none number

lemma tracks_findSome? (key : String) (cs : List Node) :
    Tracks number (cs.findSome? (boundTo? key))
      (((cs.filter (!·.isNote)).map (plain number)).findSome? (boundTo? key)) := by
  induction cs with
  | nil => exact tracks_none number
  | cons c cs ih =>
    -- the search ends at the first entry with the key, function or not; so it has to be known that
    -- both trees have an answer, and not only that functions agree
    cases hc : c.isNote with
    | true =>
      have hnone : boundTo? key c = none := by rw [boundTo?, (form_of_isNote hc).1]
      simpa [hc, hnone] using ih
    | false =>
      have hbound := tracks_boundTo? number c key
      rw [List.filter_cons_of_pos (by simp [hc]), List.map_cons, List.findSome?_cons,
        List.findSome?_cons]
      cases h : boundTo? key c with
      | none =>
        have hnone : boundTo? key (c.plain number) = none := by
          simpa [h] using hbound.isSome
        rw [hnone]
        exact ih
      | some b =>
        obtain ⟨b', hb'⟩ := Option.isSome_iff_exists.1 (hbound.isSome.trans (by rw [h]; rfl))
        rw [hb']
        rwa [h, hb'] at hbound

lemma tracks_property? (key : String) :
    Tracks number (n.property? key) ((n.plain number).property? key) := by
  have hobject : n.plainForm = .object ↔ n.form = .object := by
    rw [← beq_iff_eq, ← beq_iff_eq (b := Form.object)]
    exact Bool.eq_iff_iff.1 (plainForm_congr (g := (· == .object)) n rfl)
  rw [property?, property?, form_plain, children_plain]
  by_cases hform : n.form = .object
  · rw [hobject.2 hform, hform]
    exact tracks_findSome? number key n.children
  · split
    · next h => exact absurd h hform
    · split
      · next h => exact absurd (hobject.1 h) hform
      · exact tracks_none number

/-! ### Places -/

/-- A place of a tree and the place at the same node of the tree without comments. -/
structure Corresponds (tree : Node) (p p' : Place) : Prop where
  node : p'.node = p.node.plain number
  around : p'.around = p.around.map (plain number)
  imports : ((tree.plain number).before p').filterMap importDecl? =
    (tree.before p).filterMap importDecl?

lemma places_of_isNote {c : Node} (hc : c.isNote = true) : c.places = [⟨[], c, []⟩] := by
  obtain ⟨i, f, s, cs⟩ := c
  obtain rfl : cs = [] := (form_of_isNote hc).2
  rfl

mutual
/-- The nodes of the tree without comments are those of the tree, comments left out. -/
lemma map_places_plain : ∀ n : Node, n.isNote = false →
    (n.plain number).places.map (fun p => (p.node, p.around)) =
      n.codePlaces.map fun p => (p.node.plain number, p.around.map (plain number))
  | mk i f s cs, hn => by
    have hplaces : ((mk i f s cs).plain number).places = ⟨[], (mk i f s cs).plain number, []⟩ ::
        placesAll ((mk i f s cs).plain number) 0 (recastAll plainForm number cs) := rfl
    rw [hplaces, codePlaces, places, List.filter_cons_of_pos (by simpa using hn), List.map_cons,
      List.map_cons, map_placesAll_plain _ 0 0 cs]
    rfl
lemma map_placesAll_plain : ∀ (parent : Node) (k k' : Nat) (cs : List Node),
    (placesAll (parent.plain number) k' (recastAll plainForm number cs)).map
        (fun p => (p.node, p.around)) =
      ((placesAll parent k cs).filter (!·.node.isNote)).map fun p =>
        (p.node.plain number, p.around.map (plain number))
  | _, _, _, [] => rfl
  | parent, k, k', c :: cs => by
    rw [placesAll, List.filter_append, List.map_append]
    cases hc : c.isNote with
    | true =>
      have hskip : recastAll plainForm number (c :: cs) = recastAll plainForm number cs := by
        rw [recastAll, if_pos hc]
      rw [hskip, map_placesAll_plain parent (k + 1) k' cs, places_of_isNote hc]
      simp [hc]
    | false =>
      have hkeep : recastAll plainForm number (c :: cs) =
          c.plain number :: recastAll plainForm number cs := by
        rw [recastAll, hc]
        rfl
      have hunder : ∀ l : List Place,
          (l.map (Place.under (parent.plain number) k')).map (fun p => (p.node, p.around)) =
            (l.map fun p => (p.node, p.around)).map fun e =>
              (e.1, e.2 ++ [parent.plain number]) := by
        intro l
        rw [List.map_map, List.map_map]
        rfl
      rw [hkeep, placesAll, List.map_append, hunder, map_places_plain c hc,
        map_placesAll_plain parent (k + 1) (k' + 1) cs, codePlaces, List.filter_map, List.map_map,
        List.map_map]
      simp only [Function.comp_def, Place.under_node, Place.under_around, List.map_append,
        List.map_cons, List.map_nil]
end

lemma filterMap_importDecl?_filter (ns : List Node) :
    (ns.filter (!·.isNote)).filterMap importDecl? = ns.filterMap importDecl? := by
  rw [List.filterMap_filter]
  refine List.filterMap_congr fun n _ => ?_
  cases hn : n.isNote with
  | true => simp [importDecl?, (form_of_isNote hn).1]
  | false => rfl

/-- In front of a place there are, comments aside, the places in front of it that are not at
comments. -/
lemma filter_before_eq {tree : Node} {p : Place} {done rest : List Place}
    (h : tree.codePlaces = done ++ p :: rest) :
    (tree.before p).filter (!·.isNote) = done.map Place.node := by
  have hsorted : tree.codePlaces.Pairwise fun p q => p.address < q.address :=
    (places_sorted tree).sublist List.filter_sublist
  rw [← filter_lt_of_sorted hsorted h, before, List.filter_map, codePlaces, List.filter_filter,
    List.filter_filter]
  simp only [Function.comp_def, Bool.and_comm]

/-- The places of a tree without comments correspond to those of the tree, comments left out. -/
lemma corresponds_codePlaces {tree : Node} (htree : tree.isNote = false) :
    List.Forall₂ (Corresponds number tree) tree.codePlaces (tree.plain number).places := by
  -- what is in front of the places left agrees as well
  have hrun : ∀ rest rest' done done', tree.codePlaces = done ++ rest →
      (tree.plain number).places = done' ++ rest' →
      done'.map Place.node = done.map (fun p => p.node.plain number) →
      rest'.map (fun p => (p.node, p.around)) =
        rest.map (fun p => (p.node.plain number, p.around.map (plain number))) →
      List.Forall₂ (Corresponds number tree) rest rest' := by
    intro rest
    induction rest with
    | nil =>
      intro rest' done done' _ _ _ hrest
      obtain rfl : rest' = [] := by simpa using hrest
      exact .nil
    | cons p rest ih =>
      intro rest' done done' hplaces hplaces' hdone hrest
      obtain ⟨p', rest', rfl, hp, hrest⟩ := List.map_eq_cons_iff.1 hrest
      obtain ⟨hnode, haround⟩ := Prod.mk.inj hp
      refine .cons ⟨hnode, haround, ?_⟩ (ih rest' (done ++ [p]) (done' ++ [p']) ?_ ?_ ?_ hrest)
      · rw [before_eq hplaces', hdone, ← filterMap_importDecl?_filter (tree.before p),
          filter_before_eq hplaces, List.filterMap_map, List.filterMap_map]
        simp only [Function.comp_def, importDecl?_plain]
      · simpa using hplaces
      · simpa using hplaces'
      · simp [hdone, hnode]
  exact hrun _ _ [] [] rfl rfl rfl (map_places_plain number tree htree)

end Plain

lemma isNote_eq_false {n : Node} (h : n.isPart = true) : n.isNote = false := by
  rw [isPart, bne_iff_ne] at h
  simp [isNote, h]

lemma mem_codePlaces {tree : Node} {p : Place} (hp : p ∈ tree.places) (h : p.node.isPart = true) :
    p ∈ tree.codePlaces :=
  List.mem_filter.2 ⟨hp, by simp [isNote_eq_false h]⟩

lemma isPart_of_kind {n : Node} (h : n.kind = .callExpression) : n.isPart = true := by
  rw [kind] at h
  rw [isPart, bne_iff_ne]
  intro hcomment
  rw [hcomment] at h
  cases h

end Syntax.Node

/-! ### Verdicts -/

/-- The violation without its location. -/
def Violation.unplaced (v : Violation) : Violation := { v with location := default }

lemma exists_of_forall₂ {α β : Type} {R : α → β → Prop} {l : List α} {l' : List β}
    (h : List.Forall₂ R l l') :
    (∀ a ∈ l, ∃ b ∈ l', R a b) ∧ ∀ b ∈ l', ∃ a ∈ l, R a b := by
  induction h with
  | nil => simp
  | cons hab _ ih =>
    obtain ⟨hleft, hright⟩ := ih
    constructor
    · rintro a (_ | ⟨_, ha⟩)
      · exact ⟨_, List.mem_cons_self, hab⟩
      · obtain ⟨b, hb, hr⟩ := hleft a ha
        exact ⟨b, List.mem_cons_of_mem _ hb, hr⟩
    · rintro b (_ | ⟨_, hb⟩)
      · exact ⟨_, List.mem_cons_self, hab⟩
      · obtain ⟨a, ha, hr⟩ := hright b hb
        exact ⟨a, List.mem_cons_of_mem _ ha, hr⟩

namespace Syntax.Node.Corresponds

variable {number : FunctionId → FunctionId} {tree : Node} {p p' : Place}

lemma lastBinding?_eq (h : Corresponds number tree p p') (follows : Binding → Prop)
    [DecidablePred follows] (name : String) :
    lastBinding? follows ((tree.plain number).before p') name =
      lastBinding? follows (tree.before p) name := by
  rw [lastBinding?, imported, h.imports, lastBinding?, imported]

/-- What a rule for factories has to say does not depend on comments. -/
lemma violation?_eq (h : Corresponds number tree p p') (c : Conventions) (severity : Severity)
    (file file' : SourceFile) :
    (RawFactory.violation? c severity file' (RawFactory.tableAt c (tree.plain number) p')
        p'.node).map Violation.unplaced =
      (RawFactory.violation? c severity file (RawFactory.tableAt c tree p)
        p.node).map Violation.unplaced := by
  have htable : RawFactory.tableAt c (tree.plain number) p' = RawFactory.tableAt c tree p := by
    rw [RawFactory.tableAt, AliasTable.after, h.imports, RawFactory.tableAt, AliasTable.after]
  rw [htable, h.node, RawFactory.violation?, RawFactory.violation?, callee?_plain,
    calleeName?_plain]
  split
  · rfl
  · simp only [Option.bind_eq_bind, Option.map_bind, Function.comp_def]
    cases p.node.callee? <;> rfl

/-- A call has the same function for its handler. -/
lemma handlerOf_iff (h : Corresponds number tree p p') {c : Conventions} {g : Node} :
    (HandlerOf c (tree.plain number) p' g ∧ g.isFunction = true) ↔
      ∃ f, HandlerOf c tree p f ∧ f.isFunction = true ∧ f.plain number = g := by
  have hproperty : ∀ definition : Node,
      (definition.plain number).property? "handler" = some g ∧ g.isFunction = true ↔
        ∃ f, definition.property? "handler" = some f ∧ f.isFunction = true ∧
          f.plain number = g := by
    intro definition
    rw [← Option.filter_eq_some_iff, (tracks_property? number definition "handler").function,
      Option.map_eq_some_iff]
    simp only [Option.filter_eq_some_iff, and_assoc]
  simp only [HandlerOf, h.node, callee?_plain, firstArgument?_plain, Option.map_eq_some_iff,
    h.lastBinding?_eq, ← property?_eq_some_iff, ← name?_eq_some_iff]
  constructor
  · rintro ⟨⟨_, name, b, _, ⟨callee, hcallee, rfl⟩, hname, hb, ⟨definition, hdef, rfl⟩, hg⟩, hfun⟩
    obtain ⟨f, hf, hffun, hgf⟩ := (hproperty definition).1 ⟨hg, hfun⟩
    rw [name?_plain] at hname
    exact ⟨f, ⟨callee, name, b, definition, hcallee, hname, hb, hdef, hf⟩, hffun, hgf⟩
  · rintro ⟨f, ⟨callee, name, b, definition, hcallee, hname, hb, hdef, hf⟩, hffun, hgf⟩
    obtain ⟨hg, hfun⟩ := (hproperty definition).2 ⟨f, hf, hffun, hgf⟩
    rw [← name?_plain number] at hname
    exact ⟨⟨_, name, b, _, ⟨callee, hcallee, rfl⟩, hname, hb, ⟨definition, hdef, rfl⟩, hg⟩, hfun⟩

lemma isLookup_iff (h : Corresponds number tree p p') {c : Conventions} :
    IdentityLookup.IsLookup c p' ↔ IdentityLookup.IsLookup c p := by
  rw [IdentityLookup.IsLookup, IdentityLookup.IsLookup, h.node, callee?_plain]
  cases p.node.callee? with
  | none => simp
  | some callee => simp [memberChain?_plain]

/-- A place is inside a handler if it is without the comments.  Functions have to keep distinct
numbers. -/
lemma inHandler_iff (htree : tree.DistinctFunctions) (hroot : tree.isNote = false)
    (hnumber : ∀ i ∈ functionIds tree.preorder, ∀ j ∈ functionIds tree.preorder,
      number i = number j → i = j) (hp : p ∈ tree.places)
    (h : Corresponds number tree p p') {c : Conventions} :
    InHandler c (tree.plain number) p' ↔ InHandler c tree p := by
  obtain ⟨hto, hfrom⟩ := exists_of_forall₂ (corresponds_codePlaces number hroot)
  constructor
  · rintro ⟨g, hg, hgfun, call', hcall', hhandler⟩
    rw [h.around, List.mem_map] at hg
    obtain ⟨f, hf, rfl⟩ := hg
    obtain ⟨call, hcall, hcalls⟩ := hfrom call' hcall'
    have hplace := List.mem_of_mem_filter hcall
    obtain ⟨f', hhandler', hfun', hsame⟩ := hcalls.handlerOf_iff.1 ⟨hhandler, hgfun⟩
    -- the handler and the function around the place have the same number
    have hfun : f.isFunction = true := by rwa [isFunction_plain] at hgfun
    have hmem : f ∈ tree.preorder :=
      (tree.before_sublist p).subset (mem_before_of_mem_around hp hf)
    have hmem' := hhandler'.mem_preorder hplace
    have hid : f'.id = f.id := by
      refine hnumber _ (mem_functionIds hmem' hfun') _ (mem_functionIds hmem hfun) ?_
      rw [← id_plain number hfun', ← id_plain number hfun, hsame]
    obtain rfl := htree.eq_of_id_eq hmem' hmem hfun' hfun hid
    exact ⟨f', hf, hfun, call, hplace, hhandler'⟩
  · rintro ⟨f, hf, hfun, call, hcall, hhandler⟩
    have hcode : call ∈ tree.codePlaces := by
      obtain ⟨callee, -, -, -, hcallee, -⟩ := hhandler
      exact mem_codePlaces hcall (isPart_of_kind (kind_eq_of_callee? hcallee))
    obtain ⟨call', hcall', hcalls⟩ := hto call hcode
    obtain ⟨hhandler', hfun'⟩ := hcalls.handlerOf_iff.2 ⟨f, hhandler, hfun, rfl⟩
    refine ⟨f.plain number, ?_, hfun', call', hcall', hhandler'⟩
    rw [h.around]
    exact List.mem_map_of_mem hf

/-- What a rule has to say does not depend on comments. -/
lemma finding?_eq (htree : tree.DistinctFunctions) (hroot : tree.isNote = false)
    (hnumber : ∀ i ∈ functionIds tree.preorder, ∀ j ∈ functionIds tree.preorder,
      number i = number j → i = j) (hp : p ∈ tree.places)
    (h : Corresponds number tree p p') (r : Rule) (file file' : SourceFile) :
    (r.finding? file' (tree.plain number) p').map Violation.unplaced =
      (r.finding? file tree p).map Violation.unplaced := by
  rw [Rule.finding?, Rule.finding?]
  cases r.kind with
  | rawFactory => exact h.violation?_eq r.conventions r.severity file file'
  | identityLookup =>
    have hmisplaced : IdentityLookup.Misplaced r.conventions (tree.plain number) p' ↔
        IdentityLookup.Misplaced r.conventions tree p :=
      and_congr h.isLookup_iff (h.inHandler_iff htree hroot hnumber hp)
    simp only [IdentityLookup.finding?, hmisplaced]
    split <;> rfl

end Syntax.Node.Corresponds

namespace Syntax.Node

variable {tree : Node}

lemma ordinal_inj (tree : Node) : ∀ i ∈ functionIds tree.preorder,
    ∀ j ∈ functionIds tree.preorder, tree.ordinal i = tree.ordinal j → i = j :=
  fun _ hi _ _ h => (List.idxOf_inj hi).1 h

/-- What a rule has to say about the places of a tree that are not at comments, locations aside. -/
noncomputable def verdicts (tree : Node) (r : Rule) (file : SourceFile) :
    List (Option Violation) :=
  tree.codePlaces.map fun p => (r.finding? file tree p).map Violation.unplaced

/-- The verdicts are those about the tree without comments. -/
lemma verdicts_eq (htree : tree.DistinctFunctions) (hroot : tree.isNote = false) (r : Rule)
    (file file' : SourceFile) :
    tree.verdicts r file =
      tree.bare.places.map fun p => (r.finding? file' tree.bare p).map Violation.unplaced := by
  rw [verdicts, ← List.forall₂_eq_eq_eq, List.forall₂_map_left_iff, List.forall₂_map_right_iff]
  have hplaces : ∀ p ∈ tree.codePlaces, p ∈ tree.places := fun p hp => List.mem_of_mem_filter hp
  refine ((List.forall₂_and_left _ _).2
    ⟨hplaces, corresponds_codePlaces tree.ordinal hroot⟩).imp fun p p' h => ?_
  exact (h.2.finding?_eq htree hroot tree.ordinal_inj h.1 r file file').symm

/-- Nothing is found at comments. -/
lemma map_unplaced_found (htree : tree.DistinctFunctions) (r : Rule) (file : SourceFile) :
    ((Check.start r).behind file tree).found.map Violation.unplaced =
      (tree.verdicts r file).filterMap fun v => v := by
  rw [r.found_behind file htree, List.map_filterMap, verdicts, codePlaces, List.filterMap_map,
    List.filterMap_filter]
  refine List.filterMap_congr fun p _ => ?_
  cases hnote : p.node.isNote with
  | false => rfl
  | true =>
    cases hfinding : r.finding? file tree p with
    | none => rfl
    | some v =>
      have hpart := isPart_of_kind (Rule.reported_of_finding? hfinding).isSpelledCall.kind_eq
      rw [isNote_eq_false hpart] at hnote
      cases hnote

lemma map_kind_codePlaces (hroot : tree.isNote = false) :
    tree.codePlaces.map (·.node.kind) = tree.bare.places.map (·.node.kind) := by
  rw [← List.forall₂_eq_eq_eq, List.forall₂_map_left_iff, List.forall₂_map_right_iff]
  refine (corresponds_codePlaces tree.ordinal hroot).imp fun p p' h => ?_
  rw [h.node, kind_plain]

mutual
lemma recast_congr {label label' : Node → Form} (number : FunctionId → FunctionId) :
    ∀ n : Node, (∀ x ∈ n.preorder, label x = label' x) →
      n.recast label number = n.recast label' number
  | mk i f s cs, h => by
    rw [recast, recast, h _ (mem_preorder_self _), recastAll_congr number cs]
    exact fun x hx => h x (mem_preorder_of_mem_preorderAll hx)
lemma recastAll_congr {label label' : Node → Form} (number : FunctionId → FunctionId) :
    ∀ cs : List Node, (∀ x ∈ preorderAll cs, label x = label' x) →
      recastAll label number cs = recastAll label' number cs
  | [], _ => rfl
  | c :: cs, h => by
    rw [preorderAll] at h
    rw [recastAll, recastAll, recast_congr number c, recastAll_congr number cs]
    · exact fun x hx => h x (List.mem_append_right _ hx)
    · exact fun x hx => h x (List.mem_append_left _ hx)
end

/-- Without covered parentheses, nothing has lost its meaning. -/
lemma bare_eq_stripped (h : ∀ n ∈ tree.preorder, n.isCovered = false) :
    tree.bare = tree.stripped :=
  recast_congr tree.ordinal tree fun n hn => by simp [plainForm, h n hn]

end Syntax.Node

/-- Trees that are the same without their comments, covered parentheses having lost their meaning,
get the same verdicts at corresponding places, and checks find the same in them up to locations.  In
particular, comments do not matter unless they stand right behind an opening parenthesis. -/
theorem verdicts_eq_of_bare_eq (r : Rule) (file file' : SourceFile) (tree tree' : Node)
    (htree : tree.DistinctFunctions) (htree' : tree'.DistinctFunctions)
    (hroot : tree.isPart = true) (hroot' : tree'.isPart = true) :
    (tree.bare = tree'.bare →
      tree.verdicts r file = tree'.verdicts r file' ∧
      tree.codePlaces.map (·.node.kind) = tree'.codePlaces.map (·.node.kind) ∧
      ((Check.start r).behind file tree).found.map Violation.unplaced =
        ((Check.start r).behind file' tree').found.map Violation.unplaced) ∧
      ((∀ n ∈ tree.preorder, n.isCovered = false) → (∀ n ∈ tree'.preorder, n.isCovered = false) →
        tree.stripped = tree'.stripped → tree.bare = tree'.bare) := by
  constructor
  · intro hbare
    have hnote := Node.isNote_eq_false hroot
    have hnote' := Node.isNote_eq_false hroot'
    have hverdicts : tree.verdicts r file = tree'.verdicts r file' := by
      rw [Node.verdicts_eq htree hnote r file file, hbare,
        ← Node.verdicts_eq htree' hnote' r file' file]
    refine ⟨hverdicts, ?_, ?_⟩
    · rw [Node.map_kind_codePlaces hnote, hbare, ← Node.map_kind_codePlaces hnote']
    · rw [Node.map_unplaced_found htree, Node.map_unplaced_found htree', hverdicts]
  · intro hcovered hcovered' hstripped
    rw [Node.bare_eq_stripped hcovered, Node.bare_eq_stripped hcovered', hstripped]

/-- Comments in front of an argument, of a member and of a value do not hide a lookup in a handler
in parentheses, and comments inside an import statement do not hide what it imports. -/
theorem verdicts_eq_of_bare_eq_commented :
    let lookup := Node.mk 20 .call ⟨0, 0⟩
      [.mk 21 (.member (some "getUserIdentity")) ⟨0, 0⟩
        [.mk 22 (.member (some "auth")) ⟨0, 0⟩ [.mk 23 (.identifier "ctx") ⟨0, 0⟩ []]]]
    let statement := fun notes => Node.mk 1 (.importStatement (some "'./auth'")) ⟨0, 0⟩
      (notes ++ [.mk 10 .importClause ⟨0, 0⟩
        (notes ++ [.mk 11 .namedImports ⟨0, 0⟩
          (notes ++ [.mk 12 (.importSpecifier (.plain "authenticatedQuery") (some "aq")) ⟨0, 0⟩
            notes])])])
    let note := Node.mk 30 .comment ⟨0, 0⟩ []
    let tree := Node.mk 0 .other ⟨0, 0⟩
      [statement [note], note, .mk 2 .call ⟨0, 0⟩
        [.mk 3 (.identifier "aq") ⟨0, 0⟩ [], note, .mk 4 .arguments ⟨0, 0⟩
          [note, .mk 5 .object ⟨0, 0⟩
            [note, .mk 6 (.pair (some "handler")) ⟨0, 0⟩
              [note, .mk 7 .parenthesized ⟨0, 0⟩ [.mk 8 .function ⟨0, 0⟩ [lookup], note]]]]]]
    let tree' := Node.mk 0 .other ⟨0, 0⟩
      [statement [], .mk 2 .call ⟨0, 0⟩
        [.mk 3 (.identifier "aq") ⟨0, 0⟩ [], .mk 4 .arguments ⟨0, 0⟩
          [.mk 5 .object ⟨0, 0⟩
            [.mk 6 (.pair (some "handler")) ⟨0, 0⟩
              [.mk 7 .parenthesized ⟨0, 0⟩ [.mk 9 .function ⟨0, 0⟩ [lookup]]]]]]]
    let file : SourceFile := ⟨⟨"/repo/convex/notes.ts"⟩, ⟨"convex/notes.ts"⟩, ""⟩
    let r : Rule := ⟨.identityLookup, .standard, .error⟩
    tree.DistinctFunctions ∧ tree'.DistinctFunctions ∧ tree.isPart = true ∧
      tree'.isPart = true ∧ tree.bare = tree'.bare ∧
      ((Check.start r).behind file tree).found.length = 1 ∧
      tree.verdicts r file = tree'.verdicts r file := by
  intro lookup statement note tree tree' file r
  have htree : tree.DistinctFunctions := by decide +kernel
  have htree' : tree'.DistinctFunctions := by decide +kernel
  have hbare : tree.bare = tree'.bare := by cbv
  obtain ⟨hverdicts, -, -⟩ :=
    (verdicts_eq_of_bare_eq r file file tree tree' htree htree' rfl rfl).1 hbare
  exact ⟨htree, htree', rfl, rfl, hbare, by decide +kernel, hverdicts⟩

/-- A comment right behind the opening parenthesis of a handler hides a lookup in it, and so does
one in front of the first name of the lookup. -/
theorem comment_in_parentheses_matters :
    let note := Node.mk 30 .comment ⟨0, 0⟩ []
    let lookup := fun before => Node.mk 20 .call ⟨0, 0⟩
      [.mk 21 (.member (some "getUserIdentity")) ⟨0, 0⟩
        [.mk 22 (.member (some "auth")) ⟨0, 0⟩
          [.mk 23 .parenthesized ⟨0, 0⟩ (before ++ [.mk 24 (.identifier "ctx") ⟨0, 0⟩ []])]]]
    let tree := fun front before => Node.mk 0 .other ⟨0, 0⟩
      [.importing 1 ⟨0, 0⟩ "./auth" "authenticatedQuery" "aq",
        .mk 2 .call ⟨0, 0⟩
          [.mk 3 (.identifier "aq") ⟨0, 0⟩ [], .mk 4 .arguments ⟨0, 0⟩
            [.mk 5 .object ⟨0, 0⟩
              [.mk 6 (.pair (some "handler")) ⟨0, 0⟩
                [.mk 7 .parenthesized ⟨0, 0⟩
                  (front ++ [.mk 8 .function ⟨0, 0⟩ [lookup before]])]]]]]
    let file : SourceFile := ⟨⟨"/repo/convex/notes.ts"⟩, ⟨"convex/notes.ts"⟩, ""⟩
    let found := fun tree =>
      ((Check.start ⟨.identityLookup, .standard, .error⟩).behind file tree).found
    (tree [note] []).stripped = (tree [] []).stripped ∧
      (tree [] [note]).stripped = (tree [] []).stripped ∧
      (found (tree [] [])).length = 1 ∧ found (tree [note] []) = [] ∧
      found (tree [] [note]) = [] := by
  intro note lookup tree file found
  exact ⟨by cbv, by cbv, by decide +kernel, by decide +kernel, by decide +kernel⟩

end IdentityLint
