import IdentityLint.Proofs.ImportPositions
import Mathlib.Logic.Equiv.Basic

/-!
# Renaming what a file binds

A file may bind what it imports to any names.  `Node.rename` changes the names of a tree as a
consistent renaming of the file does: every identifier gets a new name, and so does what an import
binds, but not what it imports, nor the properties of members and objects.  An entry of an import
list that had no name of its own gets one.  Spans may move, since the new names need not be as long
as the old ones.

The questions that the rules ask about nodes are answered by the corresponding nodes
(`callee?_rename`, `property?_rename` and so on), and a name stands for what the old name stood for
(`lastBinding?_rename`).  Only the chain of a member access begins with a name of the file; that is
why the first name of the forbidden chain has to stay.
-/

namespace IdentityLint

open Syntax

namespace Syntax

/-- What is imported, with a new name for what is bound. -/
def ImportSpecifier.rename (s : String → String) (x : ImportSpecifier) : ImportSpecifier :=
  { x with bound := s x.bound }

/-- The import with new names for what it binds. -/
def ImportDecl.rename (s : String → String) (d : ImportDecl) : ImportDecl :=
  { d with specifiers := d.specifiers.map (ImportSpecifier.rename s) }

/-- The form with new names for what is bound in the file. -/
def Form.rename (s : String → String) : Form → Form
  | .identifier x => .identifier (s x)
  | .importSpecifier name bound =>
    .importSpecifier name ((bound.or (Node.importedName? name)).map s)
  | f => f

namespace Node

mutual
/-- The tree with new names for what is bound in the file, and with its spans moved. -/
def rename (s : String → String) (move : Span → Span) : Node → Node
  | mk i f sp cs => mk i (f.rename s) (move sp) (renameAll s move cs)
/-- The forest with new names for what is bound in the file. -/
def renameAll (s : String → String) (move : Span → Span) : List Node → List Node
  | [] => []
  | c :: cs => rename s move c :: renameAll s move cs
end

variable (s : String → String) (move : Span → Span) (n : Node)

lemma renameAll_eq (cs : List Node) : renameAll s move cs = cs.map (rename s move) := by
  induction cs with
  | nil => rfl
  | cons c cs ih => rw [renameAll, ih, List.map_cons]

@[simp] lemma id_rename : (n.rename s move).id = n.id := by
  cases n
  rfl

@[simp] lemma form_rename : (n.rename s move).form = n.form.rename s := by
  cases n
  rfl

@[simp] lemma children_rename :
    (n.rename s move).children = n.children.map (rename s move) := by
  cases n
  exact renameAll_eq s move _

@[simp] lemma kind_rename : (n.rename s move).kind = n.kind := by
  rw [kind, form_rename, kind]
  cases n.form <;> rfl

@[simp] lemma isFunction_rename : (n.rename s move).isFunction = n.isFunction := by
  rw [isFunction, kind_rename, isFunction]

/-! ### Questions about nodes -/

lemma isPart_rename : (n.rename s move).isPart = n.isPart := by
  rw [isPart, form_rename, isPart]
  cases n.form <;> rfl

lemma name?_rename : (n.rename s move).name? = n.name?.map s := by
  rw [name?, form_rename, name?]
  cases n.form <;> rfl

lemma specifier?_rename :
    (n.rename s move).specifier? = n.specifier?.map (ImportSpecifier.rename s) := by
  rw [specifier?, form_rename, specifier?]
  cases n.form with
  | importSpecifier name bound =>
    simp only [Form.rename]
    cases importedName? name with
    | none => rfl
    | some imported => cases bound <;> rfl
  | _ => rfl

lemma childrenOf_rename {form : Form} (hform : ∀ f : Form, (f.rename s == form) = (f == form)) :
    (n.rename s move).childrenOf form = (n.childrenOf form).map (rename s move) := by
  rw [childrenOf, children_rename, List.filter_map, childrenOf]
  congr 1
  refine List.filter_congr fun c _ => ?_
  rw [Function.comp_apply, form_rename, hform]

lemma specifiers_rename :
    (n.rename s move).specifiers = n.specifiers.map (ImportSpecifier.rename s) := by
  have hclause : ∀ f : Form, (f.rename s == .importClause) = (f == .importClause) := by
    intro f
    cases f <;> rfl
  have hlist : ∀ f : Form, (f.rename s == .namedImports) = (f == .namedImports) := by
    intro f
    cases f <;> rfl
  rw [specifiers, childrenOf_rename s move n hclause, List.flatMap_map, specifiers,
    List.map_flatMap]
  refine List.flatMap_congr fun clause _ => ?_
  rw [childrenOf_rename s move clause hlist, List.flatMap_map, List.map_flatMap]
  refine List.flatMap_congr fun list _ => ?_
  rw [children_rename, List.filterMap_map, List.map_filterMap]
  exact List.filterMap_congr fun entry _ => specifier?_rename s move entry

lemma importDecl?_rename :
    (n.rename s move).importDecl? = n.importDecl?.map (ImportDecl.rename s) := by
  rw [importDecl?, form_rename, specifiers_rename, importDecl?]
  cases n.form with
  | importStatement source =>
    cases source with
    | none => rfl
    | some literal =>
      simp only [Form.rename, Option.map_map]
      rfl
  | _ => rfl

lemma find?_rename {wanted : Node → Bool} (hwanted : ∀ c, wanted (c.rename s move) = wanted c)
    (cs : List Node) :
    (cs.map (rename s move)).find? wanted = (cs.find? wanted).map (rename s move) := by
  have hcomp : wanted ∘ rename s move = wanted := funext hwanted
  rw [List.find?_map, hcomp]

lemma callee?_rename : (n.rename s move).callee? = n.callee?.map (rename s move) := by
  rw [callee?, form_rename, children_rename, find?_rename s move (isPart_rename s move), callee?]
  cases n.form <;> rfl

lemma firstArgument?_rename :
    (n.rename s move).firstArgument? = n.firstArgument?.map (rename s move) := by
  have harguments : ∀ c : Node,
      ((c.rename s move).form == Form.arguments) = (c.form == .arguments) := by
    intro c
    rw [form_rename]
    cases c.form <;> rfl
  rw [firstArgument?, children_rename, find?_rename s move harguments, firstArgument?]
  cases n.children.find? fun c => c.form == .arguments with
  | none => rfl
  | some args =>
    have hpart := find?_rename s move (isPart_rename s move) args.children
    rw [← children_rename] at hpart
    exact hpart

lemma unwrapParens_rename :
    (n.rename s move).unwrapParens = n.unwrapParens.rename s move := by
  fun_induction unwrapParens n with
  | case1 i sp c cs ih => exact ih
  | case2 n hn =>
    refine unwrapParens.eq_2 _ fun i sp c cs heq => ?_
    obtain ⟨j, f, sp', ds⟩ := n
    rw [rename, mk.injEq] at heq
    obtain ⟨-, hform, -, hchildren⟩ := heq
    cases ds with
    | nil => exact absurd hchildren (by simp [renameAll])
    | cons d ds =>
      cases f with
      | parenthesized => exact hn j sp' d ds rfl
      | _ => exact absurd hform (by simp [Form.rename])

lemma boundTo?_rename (key : String) :
    boundTo? key (n.rename s move) = (boundTo? key n).map (rename s move) := by
  rw [boundTo?, form_rename, children_rename, ← List.map_reverse,
    find?_rename s move (isPart_rename s move), boundTo?]
  cases n.form with
  | pair k =>
    cases k with
    | none => rfl
    | some k =>
      simp only [Form.rename]
      split
      · simp only [Option.map_map, Function.comp_def, unwrapParens_rename]
      · rfl
  | method k =>
    cases k with
    | none => rfl
    | some k =>
      simp only [Form.rename]
      split <;> rfl
  | _ => rfl

lemma property?_rename (key : String) :
    (n.rename s move).property? key = (n.property? key).map (rename s move) := by
  have hbound : boundTo? key ∘ rename s move = Option.map (rename s move) ∘ boundTo? key :=
    funext fun c => boundTo?_rename s move c key
  rw [property?, form_rename, children_rename, property?]
  cases n.form with
  | object => simp only [Form.rename, List.findSome?_map, hbound, List.map_findSome?]
  | _ => rfl

/-- The chain with a new name at its beginning. -/
def renameHead : List String → List String
  | [] => []
  | x :: xs => s x :: xs

lemma renameHead_append {xs : List String} (hxs : xs ≠ []) (ys : List String) :
    renameHead s (xs ++ ys) = renameHead s xs ++ ys := by
  cases xs with
  | nil => exact absurd rfl hxs
  | cons x xs => rfl

variable {n} in
lemma Accesses.rename {object : Node} {property : Option String} (h : n.Accesses object property) :
    (n.rename s move).Accesses (object.rename s move) property where
  form := by
    rw [form_rename, h.form]
    rfl
  object := by
    rw [children_rename, find?_rename s move (isPart_rename s move), h.object, Option.map_some]

variable {n} in
lemma Interrupts.rename (h : n.Interrupts) : (n.rename s move).Interrupts := by
  obtain ⟨hname, haccess⟩ := h
  cases hform : n.form with
  | identifier x => exact absurd hform (hname x)
  | member property =>
    refine ⟨by simp [hform, Form.rename], fun object' name h => ?_⟩
    obtain rfl : property = some name := by simpa [hform, Form.rename] using h.form
    have hobject := h.object
    rw [children_rename, find?_rename s move (isPart_rename s move)] at hobject
    obtain ⟨object, hobject, -⟩ := Option.map_eq_some_iff.1 hobject
    exact haccess object name ⟨hform, hobject⟩
  | _ =>
    refine ⟨by simp [hform, Form.rename], fun object name h => ?_⟩
    exact absurd h.form (by simp [hform, Form.rename])

/-- A chain keeps its properties and gets a new first name. -/
lemma memberChain?_rename :
    (n.rename s move).memberChain? = n.memberChain?.map (renameHead s) := by
  induction n using spineInduction with
  | step n ih =>
    have hunwrap := unwrapParens_rename s move n
    rcases top_cases n with ⟨x, hx⟩ | ⟨object, name, haccess⟩ | hinterrupts
    · have hx' : (n.rename s move).unwrapParens.form = .identifier (s x) := by
        rw [hunwrap, form_rename, hx, Form.rename]
      rw [memberChain?_of_identifier hx, memberChain?_of_identifier hx']
      rfl
    · have haccess' := haccess.rename s move
      rw [← hunwrap] at haccess'
      rw [haccess.memberChain?_eq, haccess'.memberChain?_eq, ih object _ haccess]
      cases hchain : object.memberChain? with
      | none => rfl
      | some chain =>
        have hne : chain ≠ [] := (memberChain?_eq_some_iff.1 hchain).ne_nil
        simp only [Option.map_some, Option.bind_some, renameHead_append s hne]
    · have hinterrupts' := hinterrupts.rename s move
      rw [← hunwrap] at hinterrupts'
      rw [hinterrupts.memberChain?_eq, hinterrupts'.memberChain?_eq]
      rfl

end Node

/-! ### Places -/

/-- The place at the corresponding node. -/
def Place.rename (s : String → String) (move : Span → Span) (p : Place) : Place :=
  ⟨p.address, p.node.rename s move, p.around.map (Node.rename s move)⟩

namespace Node

variable (s : String → String) (move : Span → Span)

mutual
lemma places_rename : ∀ n : Node,
    (n.rename s move).places = n.places.map (Place.rename s move)
  | mk i f sp cs => by
    have hchildren := placesAll_rename (mk i f sp cs) 0 cs
    rw [rename] at hchildren
    rw [rename, places, places, List.map_cons, hchildren]
    rfl
lemma placesAll_rename : ∀ (parent : Node) (k : Nat) (cs : List Node),
    placesAll (parent.rename s move) k (renameAll s move cs) =
      (placesAll parent k cs).map (Place.rename s move)
  | _, _, [] => rfl
  | parent, k, c :: cs => by
    have hunder : Place.under (parent.rename s move) k ∘ Place.rename s move =
        Place.rename s move ∘ Place.under parent k := by
      funext p
      simp [Place.under, Place.rename]
    rw [renameAll, placesAll, placesAll, places_rename c, placesAll_rename parent (k + 1) cs,
      List.map_append, List.map_map, List.map_map, hunder]
end

lemma before_rename (tree : Node) (p : Place) :
    (tree.rename s move).before (p.rename s move) = (tree.before p).map (rename s move) := by
  rw [before, places_rename, List.filter_map, List.map_map, before, List.map_map]
  rfl

lemma functionIds_rename (ns : List Node) :
    functionIds (ns.map (rename s move)) = functionIds ns := by
  have hfun : isFunction ∘ rename s move = isFunction := funext (isFunction_rename s move)
  have hid : id ∘ rename s move = id := funext (id_rename s move)
  rw [functionIds, List.filter_map, hfun, List.map_map, hid, functionIds]

lemma distinctFunctions_rename {tree : Node} (htree : tree.DistinctFunctions) :
    (tree.rename s move).DistinctFunctions := by
  have hpreorder : (tree.rename s move).preorder = tree.preorder.map (rename s move) := by
    rw [← map_node_places, places_rename, List.map_map, ← map_node_places, List.map_map]
    rfl
  rw [DistinctFunctions, hpreorder, functionIds_rename]
  exact htree

end Node

end Syntax

/-! ### What names stand for -/

lemma Resolves.callee?_eq {follows : Binding → Prop} [DecidablePred follows] {tree : Node}
    {p : Place} {callee : Node} {b : Binding} (h : Resolves follows tree p callee b) :
    p.node.callee? = some callee := by
  obtain ⟨name, hcallee, -⟩ := h
  exact hcallee

section Rename

variable {s : String → String} (hs : Function.Injective s) (move : Span → Span)

lemma imported_rename (ns : List Node) :
    imported (ns.map (Node.rename s move)) = (imported ns).map (Prod.map s id) := by
  have hnames : ∀ d : ImportDecl, namesOf (d.rename s) = (namesOf d).map (Prod.map s id) := by
    intro d
    simp [namesOf, ImportDecl.rename, ImportSpecifier.rename]
  have hdecl : Node.importDecl? ∘ Node.rename s move =
      fun n => n.importDecl?.map (ImportDecl.rename s) :=
    funext (Node.importDecl?_rename s move)
  rw [imported, List.filterMap_map, hdecl, ← List.map_filterMap, List.flatMap_map, imported,
    List.map_flatMap]
  simp only [hnames]

include hs

/-- A new name stands for what the old one stood for. -/
lemma lastBinding?_rename (follows : Binding → Prop) [DecidablePred follows] (ns : List Node)
    (name : String) :
    lastBinding? follows (ns.map (Node.rename s move)) (s name) =
      lastBinding? follows ns name := by
  have hfilter : (fun e : String × Binding => decide (e.1 = s name ∧ follows e.2)) ∘
      Prod.map s id = fun e => decide (e.1 = name ∧ follows e.2) := by
    funext e
    simp [hs.eq_iff]
  rw [lastBinding?, imported_rename, List.filter_map, hfilter, List.getLast?_map, Option.map_map,
    lastBinding?]
  rfl

variable {tree : Node} {p : Place}

lemma resolves_rename_iff {follows : Binding → Prop} [DecidablePred follows] {callee' : Node}
    {b : Binding} :
    Resolves follows (tree.rename s move) (p.rename s move) callee' b ↔
      ∃ callee, Resolves follows tree p callee b ∧ callee.rename s move = callee' := by
  have hcallee : (p.rename s move).node.callee? = p.node.callee?.map (Node.rename s move) :=
    Node.callee?_rename s move p.node
  simp only [Resolves, ← Node.name?_eq_some_iff, hcallee, Option.map_eq_some_iff,
    Node.before_rename]
  constructor
  · rintro ⟨name', ⟨callee, hcall, rfl⟩, hname', hb⟩
    rw [Node.name?_rename, Option.map_eq_some_iff] at hname'
    obtain ⟨name, hname, rfl⟩ := hname'
    rw [lastBinding?_rename hs] at hb
    exact ⟨callee, ⟨name, hcall, hname, hb⟩, rfl⟩
  · rintro ⟨callee, ⟨name, hcall, hname, hb⟩, rfl⟩
    refine ⟨s name, ⟨callee, hcall, rfl⟩, ?_, ?_⟩
    · rw [Node.name?_rename, hname, Option.map_some]
    · rwa [lastBinding?_rename hs]

/-! ### What the rules make of it -/

lemma handlerOf_rename_iff {c : Conventions} {f' : Node} :
    HandlerOf c (tree.rename s move) (p.rename s move) f' ↔
      ∃ f, HandlerOf c tree p f ∧ f.rename s move = f' := by
  have hargument : (p.rename s move).node.firstArgument? =
      p.node.firstArgument?.map (Node.rename s move) :=
    Node.firstArgument?_rename s move p.node
  simp only [handlerOf_iff_resolves, resolves_rename_iff hs, hargument, Option.map_eq_some_iff,
    ← Node.property?_eq_some_iff]
  constructor
  · rintro ⟨_, b, ⟨callee, hresolves, rfl⟩, _, ⟨definition, hdef, rfl⟩, hf'⟩
    rw [Node.property?_rename, Option.map_eq_some_iff] at hf'
    obtain ⟨f, hf, rfl⟩ := hf'
    exact ⟨f, ⟨callee, b, hresolves, definition, hdef, hf⟩, rfl⟩
  · rintro ⟨f, ⟨callee, b, hresolves, definition, hdef, hf⟩, rfl⟩
    refine ⟨_, b, ⟨callee, hresolves, rfl⟩, _, ⟨definition, hdef, rfl⟩, ?_⟩
    rw [Node.property?_rename, hf, Option.map_some]

/-- A place is inside a handler if it was inside one before. -/
lemma inHandler_rename_iff {c : Conventions} (htree : tree.DistinctFunctions)
    (hp : p ∈ tree.places) :
    InHandler c (tree.rename s move) (p.rename s move) ↔ InHandler c tree p := by
  simp only [InHandler, Place.rename, Node.places_rename, List.mem_map]
  constructor
  · rintro ⟨_, ⟨f, hf, rfl⟩, hfun, _, ⟨call, hcall, rfl⟩, hhandler⟩
    obtain ⟨g, hg, hsame⟩ := (handlerOf_rename_iff hs move).1 hhandler
    -- spans may have been moved to the same place, but the numbers of functions stay apart
    rw [Node.isFunction_rename] at hfun
    have hgfun : g.isFunction = true := by
      rw [← Node.isFunction_rename s move, hsame, Node.isFunction_rename, hfun]
    have hid : g.id = f.id := by
      rw [← Node.id_rename s move, hsame, Node.id_rename]
    have hfmem : f ∈ tree.preorder :=
      (tree.before_sublist p).subset (Node.mem_before_of_mem_around hp hf)
    obtain rfl := htree.eq_of_id_eq (hg.mem_preorder hcall) hfmem hgfun hfun hid
    exact ⟨g, hf, hfun, call, hcall, hg⟩
  · rintro ⟨f, hf, hfun, call, hcall, hhandler⟩
    refine ⟨_, ⟨f, hf, rfl⟩, ?_, _, ⟨call, hcall, rfl⟩, ?_⟩
    · rwa [Node.isFunction_rename]
    · exact (handlerOf_rename_iff hs move).2 ⟨f, hhandler, rfl⟩

/-- A chain spells the forbidden one if it did so before. -/
lemma renameHead_eq_iff {chain forbidden : List String}
    (hforbidden : ∀ x ∈ forbidden.head?, s x = x) :
    Node.renameHead s chain = forbidden ↔ chain = forbidden := by
  cases forbidden with
  | nil => cases chain <;> simp [Node.renameHead]
  | cons y ys =>
    have hy : s y = y := hforbidden y rfl
    cases chain with
    | nil => simp [Node.renameHead]
    | cons x xs =>
      rw [Node.renameHead, List.cons.injEq, List.cons.injEq, and_congr_left_iff]
      intro _
      rw [← hs.eq_iff (a := x), hy]

lemma isLookup_rename_iff {c : Conventions} (hc : ∀ x ∈ c.forbiddenCall.head?, s x = x) :
    IdentityLookup.IsLookup c (p.rename s move) ↔ IdentityLookup.IsLookup c p := by
  have hcallee : (p.rename s move).node.callee? = p.node.callee?.map (Node.rename s move) :=
    Node.callee?_rename s move p.node
  rw [IdentityLookup.IsLookup, IdentityLookup.IsLookup, hcallee]
  cases p.node.callee? with
  | none => simp
  | some callee => simp [Node.memberChain?_rename, renameHead_eq_iff hs hc]

/-- What a rule has to say about a place, it says about the corresponding node: the same, but for
the location. -/
lemma finding?_rename_iff {r : Rule} (hr : ∀ x ∈ r.conventions.forbiddenCall.head?, s x = x)
    (file file' : SourceFile) (htree : tree.DistinctFunctions) (hp : p ∈ tree.places)
    {v' : Violation} :
    r.finding? file' (tree.rename s move) (p.rename s move) = some v' ↔
      ∃ v target, r.finding? file tree p = some v ∧ r.kind.target? p.node = some target ∧
        v.location = file.location target ∧
        v' = { v with location := file'.location (target.rename s move) } := by
  obtain ⟨k, c, severity⟩ := r
  cases k with
  | rawFactory =>
    simp only [Rule.finding?, violation?_iff_resolves, resolves_rename_iff hs]
    constructor
    · rintro ⟨_, b, ⟨callee, hresolves, rfl⟩, banned, hbanned, rfl⟩
      exact ⟨_, callee, ⟨callee, b, hresolves, banned, hbanned, rfl⟩, hresolves.callee?_eq, rfl,
        rfl⟩
    · rintro ⟨_, target, ⟨callee, b, hresolves, banned, hbanned, rfl⟩, htarget, -, rfl⟩
      obtain rfl : callee = target := Option.some.inj (hresolves.callee?_eq.symm.trans htarget)
      exact ⟨_, b, ⟨callee, hresolves, rfl⟩, banned, hbanned, rfl⟩
  | identityLookup =>
    have hmisplaced : IdentityLookup.Misplaced c (tree.rename s move) (p.rename s move) ↔
        IdentityLookup.Misplaced c tree p :=
      and_congr (isLookup_rename_iff hs move hr) (inHandler_rename_iff hs move htree hp)
    simp only [Rule.finding?, IdentityLookup.finding?, Option.ite_none_right_eq_some, hmisplaced,
      Option.some.injEq]
    constructor
    · rintro ⟨hplace, rfl⟩
      exact ⟨_, p.node, ⟨hplace, rfl⟩, rfl, rfl, rfl⟩
    · rintro ⟨_, target, ⟨hplace, rfl⟩, htarget, -, rfl⟩
      obtain rfl : p.node = target := Option.some.inj htarget
      exact ⟨hplace, rfl⟩

end Rename

/-- Both rules see through the names that a file binds.  If distinct names get distinct names, and
the first name of the forbidden chain stays, then a rule reports exactly the nodes that correspond
to those it reported before, and says the same about them.  What a rule has to say about places is
what its check finds. -/
theorem finding?_invariant_under_renaming (r : Rule) (s : String → String)
    (hs : Function.Injective s) (hr : ∀ x ∈ r.conventions.forbiddenCall.head?, s x = x)
    (move : Span → Span) (file file' : SourceFile) (tree : Node)
    (htree : tree.DistinctFunctions) :
    let renamed := tree.rename s move
    renamed.places = tree.places.map (Place.rename s move) ∧
      (∀ p ∈ tree.places, ∀ v', r.finding? file' renamed (p.rename s move) = some v' ↔
        ∃ v target, r.finding? file tree p = some v ∧ r.kind.target? p.node = some target ∧
          v.location = file.location target ∧
          v' = { v with location := file'.location (target.rename s move) }) ∧
      ((Check.start r).behind file tree).found = tree.places.filterMap (r.finding? file tree) ∧
      ((Check.start r).behind file' renamed).found =
        renamed.places.filterMap (r.finding? file' renamed) := by
  intro renamed
  refine ⟨Node.places_rename s move tree, fun p hp v' => ?_, r.found_behind file htree, ?_⟩
  · exact finding?_rename_iff hs move hr file file' htree hp
  · exact r.found_behind file' (Node.distinctFunctions_rename s move htree)

/-- A wrapper and a factory trade their names, and the file gets longer. -/
theorem finding?_invariant_under_renaming_swapped :
    let tree := Node.mk 0 .other ⟨0, 60⟩
      [.importing 1 ⟨0, 10⟩ "./_generated/server" "query" "q",
        .importing 2 ⟨10, 20⟩ "./auth" "authenticatedQuery" "aq",
        .mk 3 .call ⟨20, 60⟩
          [.mk 4 (.identifier "aq") ⟨20, 22⟩ [],
            .mk 5 .arguments ⟨22, 60⟩
              [.mk 6 .object ⟨23, 59⟩
                [.mk 7 (.pair (some "handler")) ⟨24, 58⟩
                  [.mk 8 .function ⟨33, 58⟩
                    [.mk 9 .call ⟨39, 58⟩
                      [.mk 10 (.member (some "getUserIdentity")) ⟨39, 54⟩
                          [.mk 11 (.member (some "auth")) ⟨39, 47⟩
                            [.mk 12 (.identifier "ctx") ⟨39, 42⟩ []]],
                        .mk 13 .arguments ⟨54, 58⟩
                          [.mk 14 .call ⟨55, 57⟩ [.mk 15 (.identifier "q") ⟨55, 56⟩ []]]]]]]]]]
    let s := Equiv.swap "q" "aq"
    let move := fun sp : Span => Span.mk (2 * sp.start) (2 * sp.stop)
    let file : SourceFile := ⟨⟨"/repo/convex/notes.ts"⟩, ⟨"convex/notes.ts"⟩, ""⟩
    let r := fun k => Rule.new k .standard
    let found := fun k tree =>
      ((Check.start (r k)).behind file tree).found.map fun v => (v.messageId, v.location.offset)
    Function.Injective s ∧ (∀ x ∈ Conventions.standard.forbiddenCall.head?, s x = x) ∧
      tree.DistinctFunctions ∧
      (∀ k, ∀ p ∈ tree.places, ∀ v',
        (r k).finding? file (tree.rename s move) (p.rename s move) = some v' ↔
          ∃ v target, (r k).finding? file tree p = some v ∧ k.target? p.node = some target ∧
            v.location = file.location target ∧
            v' = { v with location := file.location (target.rename s move) }) ∧
      found .rawFactory tree = [(some "useAuthenticatedQuery", 55)] ∧
      found .rawFactory (tree.rename s move) = [(some "useAuthenticatedQuery", 110)] ∧
      found .identityLookup tree = [(some "useContextIdentity", 39)] ∧
      found .identityLookup (tree.rename s move) = [(some "useContextIdentity", 78)] := by
  intro tree s move file r found
  have hs : Function.Injective s := s.injective
  have hr : ∀ x ∈ Conventions.standard.forbiddenCall.head?, s x = x := by decide +kernel
  have htree : tree.DistinctFunctions := by decide +kernel
  refine ⟨hs, hr, htree, fun k => ?_, by decide +kernel, by decide +kernel, by decide +kernel,
    by decide +kernel⟩
  exact (finding?_invariant_under_renaming (r k) s hs hr move file file tree htree).2.1

end IdentityLint
