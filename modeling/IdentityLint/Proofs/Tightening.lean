import IdentityLint.Proofs.ImportPositions
import IdentityLint.Proofs.RuleIndependence

/-!
# Tightening the conventions

Conventions are tightened by appending further entries: further factories that are banned, further
modules of the server or of the wrappers.  This adds to what the imports of a file are followed for,
to the handlers, and to the calls that are reported; and it takes nothing away, provided that no two
imports of the file bind the same name.  Otherwise a binding that is followed under the tighter
conventions only could hide an earlier one of the same name.

What is reported about a call stays the same, too, since the first entry for a factory counts.
-/

namespace IdentityLint

open Syntax

/-- The conventions `c'` are `c` with entries appended. -/
structure Conventions.TightenedBy (c c' : Conventions) : Prop where
  exemptFile : c'.exemptFile = c.exemptFile
  forbiddenCall : c'.forbiddenCall = c.forbiddenCall
  wrapperModuleFragment : c'.wrapperModuleFragment = c.wrapperModuleFragment
  banned : c.banned <+: c'.banned
  serverModules : c.serverModules <+: c'.serverModules
  wrapperModules : c.wrapperModules <+: c'.wrapperModules

/-- No two imports of the tree bind the same name. -/
def Syntax.Node.DistinctImports (tree : Node) : Prop :=
  ((imported tree.preorder).map Prod.fst).Nodup

instance (tree : Node) : Decidable tree.DistinctImports :=
  inferInstanceAs (Decidable ((imported tree.preorder).map Prod.fst).Nodup)

/-- If no name is bound twice, following more bindings does not change what a call resolves to. -/
lemma Resolves.mono {P Q : Binding → Prop} [DecidablePred P] [DecidablePred Q] {tree : Node}
    (hnames : tree.DistinctImports) (hPQ : ∀ b, P b → Q b) {p : Place} {callee : Node}
    {b : Binding} (h : Resolves P tree p callee b) : Resolves Q tree p callee b := by
  have hbefore : ((imported (tree.before p)).map Prod.fst).Nodup :=
    hnames.sublist ((imported_sublist (tree.before_sublist p)).map _)
  obtain ⟨name, hcallee, hname, hb⟩ := h
  obtain ⟨hmem, hP⟩ := mem_of_lastBinding? hb
  exact ⟨name, hcallee, hname, (lastBinding?_eq_some_iff hbefore).2 ⟨hmem, hPQ b hP⟩⟩

namespace Conventions.TightenedBy

variable {c c' : Conventions} (h : c.TightenedBy c')

include h

lemma isFactory {b : Binding} (hb : IsFactory c b) : IsFactory c' b := by
  obtain ⟨⟨m, hm, hfits⟩, e, he, hraw⟩ := hb
  exact ⟨⟨m, h.serverModules.subset hm, hfits⟩, e, h.banned.subset he, hraw⟩

lemma isWrapper {b : Binding} (hb : IsWrapper c b) : IsWrapper c' b := by
  obtain ⟨hmodule, hname⟩ := hb
  refine ⟨?_, List.map_subset _ h.banned.subset hname⟩
  rcases hmodule with hpath | hfragment | ⟨m, hm, hfits⟩
  · exact .inl (h.wrapperModules.subset hpath)
  · rw [← h.wrapperModuleFragment] at hfragment
    exact .inr (.inl hfragment)
  · exact .inr (.inr ⟨m, h.serverModules.subset hm, hfits⟩)

section Tree

variable {tree : Node} (hnames : tree.DistinctImports)

include hnames

lemma handlerOf {call : Place} {f : Node} (hf : HandlerOf c tree call f) :
    HandlerOf c' tree call f := by
  obtain ⟨callee, b, hresolves, hargument⟩ := handlerOf_iff_resolves.1 hf
  exact handlerOf_iff_resolves.2
    ⟨callee, b, hresolves.mono hnames fun _ => h.isWrapper, hargument⟩

lemma inHandler {p : Place} (hp : InHandler c tree p) : InHandler c' tree p := by
  obtain ⟨f, hf, hfun, call, hcall, hhandler⟩ := hp
  exact ⟨f, hf, hfun, call, hcall, h.handlerOf hnames hhandler⟩

/-- What a rule has to say about a place, it also says under tighter conventions. -/
lemma finding? {k : RuleKind} {severity : Severity} {file : SourceFile} {p : Place}
    {v : Violation} (hv : (Rule.mk k c severity).finding? file tree p = some v) :
    (Rule.mk k c' severity).finding? file tree p = some v := by
  cases k with
  | rawFactory =>
    obtain ⟨callee, b, hresolves, banned, hbanned, rfl⟩ := violation?_iff_resolves.1 hv
    exact violation?_iff_resolves.2 ⟨callee, b, hresolves.mono hnames fun _ => h.isFactory,
      banned, h.banned.find?_eq_some hbanned, rfl⟩
  | identityLookup =>
    obtain ⟨⟨hlookup, hinside⟩, hviolation⟩ := Option.ite_none_right_eq_some.1 hv
    have hmisplaced : IdentityLookup.Misplaced c' tree p := by
      refine ⟨?_, h.inHandler hnames hinside⟩
      rw [IdentityLookup.IsLookup, h.forbiddenCall]
      exact hlookup
    refine Option.ite_none_right_eq_some.2 ⟨hmisplaced, ?_⟩
    rw [← hviolation, IdentityLookup.violation, IdentityLookup.violation, h.forbiddenCall]

/-- The findings of a rule are among those under tighter conventions. -/
lemma found_sublist (htree : tree.DistinctFunctions) (k : RuleKind) (severity : Severity)
    (file : SourceFile) :
    ((Check.start ⟨k, c, severity⟩).behind file tree).found.Sublist
      ((Check.start ⟨k, c', severity⟩).behind file tree).found := by
  rw [Rule.found_behind _ _ htree, Rule.found_behind _ _ htree, List.filterMap_eq_flatMap_toList,
    List.filterMap_eq_flatMap_toList]
  refine List.Sublist.flatMap_right _ fun p _ => ?_
  cases hv : (Rule.mk k c severity).finding? file tree p with
  | none => exact List.nil_sublist _
  | some v =>
    rw [h.finding? hnames hv]

end Tree

end Conventions.TightenedBy

namespace Analyzer

/-- The analyzer with all rules, which go by the given conventions. -/
def under (a : Analyzer) (c : Conventions) : Analyzer :=
  { a with rules := Rule.all c, config := { a.config with conventions := c } }

/-- A rule contributes what it contributes under tighter conventions, or less. -/
lemma share_sublist (a : Analyzer) {c c' : Conventions} (h : c.TightenedBy c') {file : SourceFile}
    (hnames : file.tree.DistinctImports) (k : RuleKind) :
    ((a.under c).share file (.new k c)).Sublist ((a.under c').share file (.new k c')) := by
  -- neither settings nor directives ask for the conventions
  have huses : (a.under c').uses file (.new k c') = (a.under c).uses file (.new k c) := by
    rw [uses, uses, Rule.exempts, Rule.exempts, Rule.new, Rule.new, h.exemptFile]
    rfl
  have houtcome : (a.under c').outcome file.content (.new k c') =
      (a.under c).outcome file.content (.new k c) := rfl
  rw [share, share, huses, houtcome]
  split
  · exact (h.found_sublist hnames file.distinctFunctions_tree k .error file).filterMap _
  · exact List.Sublist.refl _

/-- Tightening the conventions never hides a violation: if no two imports of a file bind the same
name, all that is reported about the file is also reported under tighter conventions, with the same
words, at the same places and in the same order. -/
theorem checkSource_sublist_of_tightenedBy (a : Analyzer) (c c' : Conventions) (path : Path)
    (content : String) (h : c.TightenedBy c')
    (hnames : (SourceFile.new path content a.root).tree.DistinctImports) :
    ((a.under c).checkSource path content).Sublist ((a.under c').checkSource path content) := by
  have hrules : ∀ c, (a.under c).rules = RuleKind.all.map (Rule.new · c) := fun _ => rfl
  rw [checkSource, checkSource, checkFile_eq_shares, checkFile_eq_shares, hrules, hrules,
    List.flatMap_map, List.flatMap_map]
  refine mergeSort_sublist_mergeSort precedes_trans precedes_total ?_
  exact List.Sublist.flatMap_right _ fun k _ => a.share_sublist h hnames k

/-- A further factory and a further module of wrappers bring up two violations in front of the one
that was there before. -/
theorem checkSource_sublist_of_tightenedBy_nested :
    let c : Conventions := ⟨"auth.ts", [⟨"q", "w", "useW"⟩], ["s"], [], "", ["c", "a", "g"]⟩
    let c' : Conventions :=
      ⟨"auth.ts", [⟨"q", "w", "useW"⟩, ⟨"m", "v", "useV"⟩], ["s"], ["t"], "", ["c", "a", "g"]⟩
    let a : Analyzer := ⟨⟨"/repo"⟩, [], [], .standard⟩
    let path : Path := ⟨"/repo/notes.ts"⟩
    let content := "import{q,m}from\"s\";import{w}from\"t\";m(w({handler(){c.a.g(q())}}))"
    c.TightenedBy c' ∧ (SourceFile.new path content a.root).tree.DistinctImports ∧
      ((a.under c).checkSource path content).length = 1 ∧
      ((a.under c').checkSource path content).length = 3 ∧
      ((a.under c).checkSource path content).Sublist ((a.under c').checkSource path content) := by
  intro c c' a path content
  have htightened : c.TightenedBy c' :=
    ⟨rfl, rfl, rfl, by decide +kernel, by decide +kernel, by decide +kernel⟩
  have hlength : ∀ c, ((a.under c).checkSource path content).length =
      ((a.under c).rules.flatMap
        ((a.under c).share (SourceFile.new path content a.root))).length := by
    intro c
    rw [checkSource, checkFile_eq_shares, List.length_mergeSort]
    rfl
  -- all facts about the text together, so that it is read once
  have hfacts : (SourceFile.new path content a.root).tree.DistinctImports ∧
      ((a.under c).rules.flatMap
        ((a.under c).share (SourceFile.new path content a.root))).length = 1 ∧
      ((a.under c').rules.flatMap
        ((a.under c').share (SourceFile.new path content a.root))).length = 3 := by
    decide +kernel
  obtain ⟨hnames, hone, hthree⟩ := hfacts
  exact ⟨htightened, hnames, (hlength c).trans hone, (hlength c').trans hthree,
    checkSource_sublist_of_tightenedBy a c c' path content htightened hnames⟩

end Analyzer

end IdentityLint
