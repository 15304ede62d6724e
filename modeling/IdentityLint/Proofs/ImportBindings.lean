import IdentityLint.HandlerScopes
import Mathlib.Data.List.Flatten
import Mathlib.Data.List.Infix
import Mathlib.Data.List.Nodup
import Mathlib.Tactic.Lemma

/-!
# What imported names stand for

`imported` lists what the imports among some nodes bind, in the order of the text.  A table that
follows some of these bindings, and is shown the imports one after the other, knows of a name the
last binding that it follows (`AliasTable.binding?_after`).

Which bindings a rule follows is said here in terms of the conventions: those of banned factories
from a server module (`IsFactory`), and those of wrappers from a module that may export them
(`IsWrapper`).
-/

namespace IdentityLint

open Syntax

/-! ### Occurrences of a text -/

lemma Text.contains_iff {part text : List Char} :
    Text.contains part text = true ↔ part <:+: text := by
  induction text with
  | nil => cases part <;> simp [Text.contains]
  | cons c cs ih =>
    rw [Text.contains, Bool.or_eq_true, List.isPrefixOf_iff_prefix, ih, List.infix_cons_iff]

/-- The text of a string occurs in that of another. -/
def Occurs (part text : String) : Prop := part.toList <:+: text.toList

instance (part text : String) : Decidable (Occurs part text) :=
  inferInstanceAs (Decidable (part.toList <:+: text.toList))

namespace ModuleMatcher

variable {m : ModuleMatcher} {source : String}

lemma accepts_iff :
    m.accepts source = true ↔ source ∈ m.paths ∨ ∃ f ∈ m.fragments, Occurs f source := by
  simp [accepts, Occurs, Text.contains_iff]

lemma accepts_empty : empty.accepts source = false := rfl

lemma accepts_exactly {paths : List String} :
    (m.exactly paths).accepts source = true ↔ m.accepts source = true ∨ source ∈ paths := by
  simp only [accepts_iff, exactly, List.mem_append]
  exact or_right_comm

/-- Empty fragments do not count. -/
lemma accepts_containing {fragments : List String} :
    (m.containing fragments).accepts source = true ↔
      m.accepts source = true ∨ ∃ f ∈ fragments, f ≠ "" ∧ Occurs f source := by
  have hmem : ∀ f, f ∈ fragments.filter (!·.isEmpty) ↔ f ∈ fragments ∧ f ≠ "" := by
    simp
  simp only [accepts_iff, containing, List.mem_append, hmem, or_and_right, exists_or, and_assoc,
    or_assoc]

end ModuleMatcher

/-! ### Imports in the order of the text -/

/-- The statement that imports one name of a module and binds it to another.  Only the numbers of
functions are ever read, so the nodes inside it need none of their own. -/
def Syntax.Node.importing (id : Nat) (span : Span) (source imported bound : String) : Node :=
  .mk id (.importStatement (some ("'" ++ source ++ "'"))) span
    [.mk id .importClause span
      [.mk id .namedImports span
        [.mk id (.importSpecifier (.plain imported) (some bound)) span []]]]

/-- What the names of an import list stand for. -/
def namesOf (decl : ImportDecl) : List (String × Binding) :=
  decl.specifiers.map fun s => (s.bound, ⟨s.imported, decl.source⟩)

/-- What the imports among some nodes bind, first binding first. -/
def imported (ns : List Node) : List (String × Binding) :=
  (ns.filterMap Node.importDecl?).flatMap namesOf

/-- What is no import statement imports nothing. -/
lemma Syntax.Node.importDecl?_eq_none {n : Node} (h : n.kind ≠ .importDeclaration) :
    n.importDecl? = none := by
  cases hf : n.form <;> simp_all [importDecl?, kind, Form.kind]

lemma mem_imported_iff {ns : List Node} {e : String × Binding} :
    e ∈ imported ns ↔ ∃ n ∈ ns, ∃ decl, n.importDecl? = some decl ∧ e ∈ namesOf decl := by
  simp only [imported, List.mem_flatMap, List.mem_filterMap]
  constructor
  · rintro ⟨decl, ⟨n, hn, hdecl⟩, he⟩
    exact ⟨n, hn, decl, hdecl, he⟩
  · rintro ⟨n, hn, decl, hdecl, he⟩
    exact ⟨decl, ⟨n, hn, hdecl⟩, he⟩

lemma imported_append (ns ms : List Node) : imported (ns ++ ms) = imported ns ++ imported ms := by
  rw [imported, List.filterMap_append, List.flatMap_append, imported, imported]

lemma imported_cons_of_none {n : Node} (h : n.importDecl? = none) (ns : List Node) :
    imported (n :: ns) = imported ns := by
  rw [imported, List.filterMap_cons_none h, imported]

lemma mem_imported_preorderAll {cs : List Node} {e : String × Binding} :
    e ∈ imported (Node.preorderAll cs) ↔ ∃ c ∈ cs, e ∈ imported c.preorder := by
  induction cs with
  | nil => simp [Node.preorderAll, imported]
  | cons c cs ih => simp [Node.preorderAll, imported_append, ih]

lemma imported_sublist {ns ms : List Node} (h : ns.Sublist ms) :
    (imported ns).Sublist (imported ms) :=
  (h.filterMap _).flatMap _

lemma imported_perm {ns ms : List Node} (h : ns.Perm ms) : (imported ns).Perm (imported ms) :=
  (h.filterMap _).flatMap_right _

/-- What a name stands for behind some nodes: of the bindings that are followed, the last one of
the name counts. -/
def lastBinding? (follows : Binding → Prop) [DecidablePred follows] (ns : List Node)
    (name : String) : Option Binding :=
  ((imported ns).filter fun e => e.1 = name ∧ follows e.2).getLast?.map Prod.snd

section lastBinding

variable {follows : Binding → Prop} [DecidablePred follows] {ns : List Node} {name : String}
  {b : Binding}

lemma mem_of_lastBinding? (h : lastBinding? follows ns name = some b) :
    (name, b) ∈ imported ns ∧ follows b := by
  obtain ⟨e, he, rfl⟩ := Option.map_eq_some_iff.1 h
  obtain ⟨hmem, hfollows⟩ := List.mem_filter.1 (List.mem_of_getLast? he)
  obtain ⟨rfl, hb⟩ : e.1 = name ∧ follows e.2 := by simpa using hfollows
  exact ⟨hmem, hb⟩

/-- A name stands for something if a binding of it is followed. -/
lemma exists_lastBinding?_iff :
    (∃ b, lastBinding? follows ns name = some b) ↔ ∃ b, (name, b) ∈ imported ns ∧ follows b := by
  constructor
  · rintro ⟨b, hb⟩
    exact ⟨b, mem_of_lastBinding? hb⟩
  · rintro ⟨b, hmem, hb⟩
    have hne : (imported ns).filter (fun e => e.1 = name ∧ follows e.2) ≠ [] :=
      List.ne_nil_of_mem (List.mem_filter.2 ⟨hmem, by simpa using hb⟩)
    rw [lastBinding?, List.getLast?_eq_getLast_of_ne_nil hne]
    exact ⟨_, rfl⟩

/-- If no name is bound twice, every followed binding counts. -/
lemma lastBinding?_eq_some_iff (hnames : ((imported ns).map Prod.fst).Nodup) :
    lastBinding? follows ns name = some b ↔ (name, b) ∈ imported ns ∧ follows b := by
  refine ⟨mem_of_lastBinding?, fun h => ?_⟩
  obtain ⟨b', hb'⟩ := exists_lastBinding?_iff.2 ⟨b, h⟩
  have hsame := List.inj_on_of_nodup_map hnames (mem_of_lastBinding? hb').1 h.1 rfl
  rw [hb', (Prod.mk.inj hsame).2]

end lastBinding

/-! ### The table -/

namespace AliasTable

variable (t : AliasTable)

/-- The table behind the imports among some nodes. -/
def after (ns : List Node) : AliasTable := (ns.filterMap Node.importDecl?).foldl register t

/-- Does the table follow a binding? -/
def follows (b : Binding) : Bool := t.modules.accepts b.source && t.symbols.contains b.canonical

lemma tracked_eq (decl : ImportDecl) :
    t.tracked decl = (namesOf decl).filter fun e => t.follows e.2 := by
  rw [tracked, namesOf, List.filter_map]
  cases h : t.modules.accepts decl.source <;> simp [follows, Function.comp_def, h]

lemma bindings_foldl_register (ds : List ImportDecl) :
    (ds.foldl register t).bindings =
      ((ds.flatMap namesOf).filter fun e => t.follows e.2).reverse ++ t.bindings := by
  induction ds generalizing t with
  | nil => rfl
  | cons d ds ih =>
    -- an import does not change what the table follows
    have hfollows : (t.register d).follows = t.follows := rfl
    rw [List.foldl_cons, ih, hfollows, List.flatMap_cons, List.filter_append, List.reverse_append,
      List.append_assoc, register, tracked_eq]

lemma after_concat (ns : List Node) (n : Node) :
    t.after (ns ++ [n]) =
      match n.importDecl? with
      | some decl => (t.after ns).register decl
      | none => t.after ns := by
  rw [after, List.filterMap_append, List.foldl_append]
  cases h : n.importDecl? <;> simp [h, after]

lemma after_concat_of_kind_ne (ns : List Node) {n : Node}
    (hn : n.kind ≠ .importDeclaration) : t.after (ns ++ [n]) = t.after ns := by
  rw [after_concat, Node.importDecl?_eq_none hn]

lemma lookup_reverse (l : List (String × Binding)) (name : String) :
    l.reverse.lookup name = ((l.filter fun e => e.1 = name).getLast?).map Prod.snd := by
  induction l with
  | nil => rfl
  | cons e l ih =>
    obtain ⟨x, b⟩ := e
    rw [List.reverse_cons, List.lookup_append, ih, List.filter_cons]
    -- the first entry of the list counts if no later one has its name
    by_cases h : x = name
    · subst h
      cases hlast : (l.filter fun d => d.1 = x).getLast? <;>
        simp [List.getLast?_cons, hlast]
    · have hne : (name == x) = false := by simpa using Ne.symm h
      simp [List.lookup_cons, h, hne]

/-- The table knows of a name the last binding that it follows. -/
lemma binding?_after (modules : ModuleMatcher) (symbols : List String) (ns : List Node)
    (name : String) {P : Binding → Prop} [DecidablePred P]
    (hP : ∀ b, (new modules symbols).follows b = true ↔ P b) :
    ((new modules symbols).after ns).binding? name = lastBinding? P ns name := by
  have hfilter : ∀ e : String × Binding,
      (decide (e.1 = name) && (new modules symbols).follows e.2) =
        decide (e.1 = name ∧ P e.2) := by
    intro e
    rw [Bool.eq_iff_iff]
    simp [hP]
  rw [binding?, after, bindings_foldl_register, new, List.append_nil, lookup_reverse,
    List.filter_filter, lastBinding?, imported]
  simp only [← hfilter]
  rfl

end AliasTable

/-! ### Factories and wrappers -/

/-- Does a name stand for a banned factory that a server module exports? -/
def IsFactory (c : Conventions) (b : Binding) : Prop :=
  (∃ m ∈ c.serverModules, m ≠ "" ∧ Occurs m b.source) ∧ ∃ e ∈ c.banned, e.raw = b.canonical

instance (c : Conventions) : DecidablePred (IsFactory c) :=
  fun b => inferInstanceAs (Decidable (_ ∧ ∃ e ∈ c.banned, e.raw = b.canonical))

/-- Does a name stand for a wrapper, exported by a module of the wrappers or of the server? -/
def IsWrapper (c : Conventions) (b : Binding) : Prop :=
  (b.source ∈ c.wrapperModules ∨
      (c.wrapperModuleFragment ≠ "" ∧ Occurs c.wrapperModuleFragment b.source) ∨
      ∃ m ∈ c.serverModules, m ≠ "" ∧ Occurs m b.source) ∧
    b.canonical ∈ c.wrapperNames

instance (c : Conventions) : DecidablePred (IsWrapper c) :=
  fun b => inferInstanceAs (Decidable (_ ∧ b.canonical ∈ c.wrapperNames))

lemma follows_factories_iff (c : Conventions) (b : Binding) :
    (AliasTable.new (ModuleMatcher.empty.containing c.serverModules)
      (c.banned.map (·.raw))).follows b = true ↔ IsFactory c b := by
  simp [AliasTable.follows, AliasTable.new, ModuleMatcher.accepts_containing,
    ModuleMatcher.accepts_empty, IsFactory]

lemma follows_wrappers_iff (c : Conventions) (b : Binding) :
    (AliasTable.new (HandlerScopes.wrapperModules c) c.wrapperNames).follows b = true ↔
      IsWrapper c b := by
  simp [AliasTable.follows, AliasTable.new, HandlerScopes.wrapperModules,
    ModuleMatcher.accepts_containing, ModuleMatcher.accepts_exactly, ModuleMatcher.accepts_empty,
    IsWrapper, or_assoc]

end IdentityLint
