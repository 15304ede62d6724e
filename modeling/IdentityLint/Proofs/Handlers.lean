import IdentityLint.Proofs.ImportBindings
import IdentityLint.Proofs.View

/-!
# Handlers of wrapper calls

`HandlerOf` says what the handler of a call is without reference to the walk: the call is one of a
wrapper, judged by the imports in front of it, and the handler is what its first argument, an
object literal, binds to `handler` first.

The walk goes through the tree once and collects handlers as it goes: `HandlerScopes.Knows` is the
invariant that it knows the imports and the handlers among the places already visited.  That these
are enough to tell whether a place is inside a handler (`Knows.inHandler_iff`) rests on two facts:
a handler lies inside its call, so a call whose handler is around a place comes before the place;
and no two functions share a number, so the handlers among the functions around a place can be told
by their numbers.
-/

namespace IdentityLint

open Syntax

/-! ### Handlers -/

/-- The node `f` is the handler that the call at a place gives to a wrapper. -/
def HandlerOf (c : Conventions) (tree : Node) (call : Place) (f : Node) : Prop :=
  ∃ callee name b definition, call.node.callee? = some callee ∧ callee.form = .identifier name ∧
    lastBinding? (IsWrapper c) (tree.before call) name = some b ∧
    call.node.firstArgument? = some definition ∧ definition.BindsFirst "handler" f

lemma HandlerOf.mem {c : Conventions} {tree : Node} {call : Place} {f : Node}
    (h : HandlerOf c tree call f) : f ∈ Node.preorderAll call.node.children := by
  obtain ⟨-, -, -, definition, -, -, -, hdef, hfirst⟩ := h
  obtain ⟨args, hargs, hmem⟩ := Node.firstArgument?_mem hdef
  exact Node.mem_preorderAll_of_mem hargs
    (Node.mem_preorder_of_mem_preorderAll (Node.mem_preorderAll_of_mem hmem hfirst.mem))

/-- A handler comes behind its call. -/
lemma HandlerOf.mem_rest {c : Conventions} {tree : Node} {call : Place} {f : Node}
    (h : HandlerOf c tree call f) {done rest : List Place}
    (hcut : tree.places = done ++ call :: rest) : f ∈ rest.map Place.node :=
  Node.mem_rest_of_mem_preorderAll hcut h.mem

lemma HandlerOf.mem_preorder {c : Conventions} {tree : Node} {call : Place} {f : Node}
    (h : HandlerOf c tree call f) (hcall : call ∈ tree.places) : f ∈ tree.preorder := by
  obtain ⟨front, back, hcut⟩ := List.append_of_mem hcall
  rw [← Node.map_node_places, hcut, List.map_append, List.map_cons]
  exact List.mem_append_right _ (List.mem_cons_of_mem _ (h.mem_rest hcut))

/-- One of the function literals around a place, at any distance, is the handler of a wrapper
call. -/
def InHandler (c : Conventions) (tree : Node) (p : Place) : Prop :=
  ∃ f ∈ p.around, f.isFunction = true ∧ ∃ call ∈ tree.places, HandlerOf c tree call f

namespace HandlerScopes

variable {c : Conventions} {tree : Node}

/-- The call at a place has a function literal for its handler, and `i` is its number. -/
def HandlerAt (c : Conventions) (tree : Node) (call : Place) (i : FunctionId) : Prop :=
  ∃ f, HandlerOf c tree call f ∧ f.isFunction = true ∧ f.id = i

/-- Behind the imports in front of a call, the handler is found if it is a function literal. -/
lemma handlerOf?_eq_some_iff {call : Place} {h : HandlerScopes}
    (hh : h.aliases = (new c).aliases.after (tree.before call)) {i : FunctionId} :
    h.handlerOf? call.node = some i ↔ HandlerAt c tree call i := by
  have hbinding : ∀ name, h.aliases.binding? name =
      lastBinding? (IsWrapper c) (tree.before call) name := by
    intro name
    rw [hh]
    exact AliasTable.binding?_after _ _ _ _ (follows_wrappers_iff c)
  simp only [handlerOf?, handlerProperty, Node.calleeName?, AliasTable.resolve?, hbinding,
    Option.bind_eq_bind, Option.bind_eq_some_iff, Option.map_eq_some_iff, Node.name?_eq_some_iff,
    Node.property?_eq_some_iff, Option.ite_none_right_eq_some, Option.some.injEq, HandlerAt,
    HandlerOf]
  constructor
  · rintro ⟨name, ⟨callee, hcallee, hname⟩, -, ⟨b, hb, -⟩, definition, hdef, f, hf, hfun, hid⟩
    exact ⟨f, ⟨callee, name, b, definition, hcallee, hname, hb, hdef, hf⟩, hfun, hid⟩
  · rintro ⟨f, ⟨callee, name, b, definition, hcallee, hname, hb, hdef, hf⟩, hfun, hid⟩
    exact ⟨name, ⟨callee, hcallee, hname⟩, _, ⟨b, hb, rfl⟩, definition, hdef, f, hf, hfun, hid⟩

lemma handlerOf?_of_kind_ne {n : Node} (hn : n.kind ≠ .callExpression) (h : HandlerScopes) :
    h.handlerOf? n = none := by
  rw [handlerOf?, Node.calleeName?, Node.callee?_eq_none_of_kind_ne hn]
  rfl

lemma isSome_enclosing?_iff (h : HandlerScopes) (scopes : ScopeChain) :
    (h.enclosing? scopes).isSome = true ↔ ∃ i ∈ scopes.ancestors, i ∈ h.handlers := by
  rw [enclosing?, List.find?_isSome]
  simp only [isHandler, List.contains_iff_mem]

lemma isEmpty_eq_false_of_mem {h : HandlerScopes} {i : FunctionId} (hi : i ∈ h.handlers) :
    h.isEmpty = false := by
  rw [isEmpty, List.isEmpty_eq_false_iff]
  exact List.ne_nil_of_mem hi

/-! ### The walk -/

/-- The imports and the handlers among the places already visited are known. -/
structure Knows (c : Conventions) (tree : Node) (done : List Place) (h : HandlerScopes) :
    Prop where
  aliases : h.aliases = (new c).aliases.after (done.map Place.node)
  handlers : ∀ i, i ∈ h.handlers ↔ ∃ call ∈ done, HandlerAt c tree call i

lemma knows_new : Knows c tree [] (new c) where
  aliases := rfl
  handlers i := by simp [new]

section Step

variable {p : Place} {done rest : List Place} {h : HandlerScopes}

lemma exists_handlerAt_concat {i : FunctionId} :
    (∃ call ∈ done ++ [p], HandlerAt c tree call i) ↔
      (∃ call ∈ done, HandlerAt c tree call i) ∨ HandlerAt c tree p i := by
  constructor
  · rintro ⟨call, hcall, hi⟩
    rcases List.mem_append.1 hcall with hdone | hlast
    · exact .inl ⟨call, hdone, hi⟩
    · exact .inr (List.mem_singleton.1 hlast ▸ hi)
  · rintro (⟨call, hcall, hi⟩ | hi)
    · exact ⟨call, List.mem_append_left _ hcall, hi⟩
    · exact ⟨p, by simp, hi⟩

lemma Knows.handlerOf?_iff (hh : Knows c tree done h) (hcut : tree.places = done ++ p :: rest)
    {i : FunctionId} : h.handlerOf? p.node = some i ↔ HandlerAt c tree p i :=
  handlerOf?_eq_some_iff (by rw [hh.aliases, Node.before_eq hcut])

lemma Knows.handlers_concat (hh : Knows c tree done h) (hcut : tree.places = done ++ p :: rest)
    (hcall : h.handlerOf? p.node = none) (i : FunctionId) :
    i ∈ h.handlers ↔ ∃ call ∈ done ++ [p], HandlerAt c tree call i := by
  have hnot : ¬HandlerAt c tree p i := by
    rw [← hh.handlerOf?_iff hcut, hcall]
    simp
  rw [exists_handlerAt_concat, hh.handlers, or_iff_left hnot]

/-- A place whose node is neither an import nor a call with a handler. -/
lemma Knows.skip (hh : Knows c tree done h) (hcut : tree.places = done ++ p :: rest)
    (himport : p.node.kind ≠ .importDeclaration) (hcall : h.handlerOf? p.node = none) :
    Knows c tree (done ++ [p]) h where
  aliases := by
    rw [List.map_append, List.map_singleton, AliasTable.after_concat_of_kind_ne _ _ himport,
      hh.aliases]
  handlers := hh.handlers_concat hcut hcall

/-- A call with a handler. -/
lemma Knows.insert (hh : Knows c tree done h) (hcut : tree.places = done ++ p :: rest)
    (himport : p.node.kind ≠ .importDeclaration) {i : FunctionId}
    (hcall : h.handlerOf? p.node = some i) : Knows c tree (done ++ [p]) (h.insert i) where
  aliases := by
    rw [List.map_append, List.map_singleton, AliasTable.after_concat_of_kind_ne _ _ himport,
      ← hh.aliases]
    rfl
  handlers j := by
    have hi : HandlerAt c tree p j ↔ j = i := by
      rw [← hh.handlerOf?_iff hcut, hcall, Option.some.injEq, eq_comm]
    rw [exists_handlerAt_concat, ← hh.handlers, hi, HandlerScopes.insert, List.mem_cons, or_comm]

/-- An import. -/
lemma Knows.observeImport (hh : Knows c tree done h) (hcut : tree.places = done ++ p :: rest)
    (himport : p.node.kind = .importDeclaration) :
    Knows c tree (done ++ [p]) (h.observeImport p.node) := by
  have hcall : h.handlerOf? p.node = none := handlerOf?_of_kind_ne (by simp [himport]) h
  have hhandlers : (h.observeImport p.node).handlers = h.handlers := by
    rw [HandlerScopes.observeImport]
    split <;> rfl
  refine ⟨?_, fun i => ?_⟩
  · rw [List.map_append, List.map_singleton, AliasTable.after_concat, ← hh.aliases,
      HandlerScopes.observeImport]
    cases p.node.importDecl? <;> rfl
  · rw [hhandlers]
    exact hh.handlers_concat hcut hcall i

/-- The functions around a place that are known to be handlers are all the handlers around it. -/
lemma Knows.inHandler_iff (hh : Knows c tree done h) (hcut : tree.places = done ++ p :: rest)
    (htree : tree.DistinctFunctions) :
    (∃ i ∈ p.functions, i ∈ h.handlers) ↔ InHandler c tree p := by
  have hpreorder : tree.preorder = done.map Place.node ++ (p :: rest).map Place.node := by
    rw [← Node.map_node_places, hcut, List.map_append]
  have hbefore : ∀ f ∈ p.around, f ∈ done.map Place.node := by
    intro f hf
    rw [← Node.before_eq hcut]
    exact Node.mem_before_of_mem_around (by simp [hcut]) hf
  constructor
  · rintro ⟨i, hi, hhandler⟩
    obtain ⟨g, hg, rfl⟩ := List.mem_map.1 hi
    obtain ⟨hgaround, hgfun⟩ := List.mem_filter.1 hg
    obtain ⟨call, hcall, f, hf, hffun, hid⟩ := (hh.handlers _).1 hhandler
    have hplace : call ∈ tree.places := hcut ▸ List.mem_append_left _ hcall
    -- both `f` and `g` are functions of the tree, so their number makes them the same
    have hfmem : f ∈ tree.preorder := hf.mem_preorder hplace
    have hgmem : g ∈ tree.preorder := hpreorder ▸ List.mem_append_left _ (hbefore g hgaround)
    obtain rfl := htree.eq_of_id_eq hfmem hgmem hffun hgfun hid
    exact ⟨f, hgaround, hffun, call, hplace, hf⟩
  · rintro ⟨f, hf, hfun, call, hcall, hhandler⟩
    have hdone : call ∈ done := by
      rw [hcut, List.mem_append] at hcall
      refine hcall.resolve_right fun hlate => ?_
      -- otherwise the handler would come both before and behind the place
      obtain ⟨front, back, hsplit⟩ := List.append_of_mem hlate
      have hcut' : tree.places = (done ++ front) ++ call :: back := by
        rw [hcut, hsplit, List.append_assoc]
      refine htree.not_mem_of_mem hpreorder hfun (hbefore f hf) ?_
      rw [hsplit, List.map_append, List.map_cons]
      exact List.mem_append_right _ (List.mem_cons_of_mem _ (hhandler.mem_rest hcut'))
    exact ⟨f.id, Node.mem_functionIds hf hfun,
      (hh.handlers _).2 ⟨call, hdone, f, hhandler, hfun, rfl⟩⟩

end Step

end HandlerScopes

end IdentityLint
