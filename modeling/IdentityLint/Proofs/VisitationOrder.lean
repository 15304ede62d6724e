import IdentityLint.Proofs.Sites
import IdentityLint.Proofs.Spans
import IdentityLint.Proofs.Suppression
import Mathlib.Data.Multiset.Bind

/-!
# The order of the output

The analyzer collects what the rules find rule by rule and sorts it by offset, longer spans first.
Here it is shown that this restores the order of the visits: if the spans of the tree are as a
parser makes them and no two rules are of one kind, then the output is what is left of the findings
at the first place, at the second place, and so on (`checkTree_eq_flatMap`).

At a place there is at most one finding, since rules of different kinds report different calls;
and calls that are reported begin in pre-order (`Node.WellSpanned.start_lt_start`).  So the offsets
of the output increase strictly, the lengths never decide, and the order of the rules is lost.
-/

namespace IdentityLint

open Syntax

lemma perm_flatMap_flatMap {α β γ : Type} (l : List α) (m : List β) (f : α → β → List γ) :
    List.Perm (l.flatMap fun a => m.flatMap fun b => f a b)
      (m.flatMap fun b => l.flatMap fun a => f a b) := by
  rw [← Multiset.coe_eq_coe]
  simp only [← Multiset.coe_bind]
  exact Multiset.bind_bind _ _

namespace Analyzer

variable (a : Analyzer) (file : SourceFile) (tree : Node)

/-- The rules that look at a file. -/
def activeRules : List Rule := a.enabledRules.filter (!·.exempts file)

/-- What is left of what some rules have to say about a place. -/
noncomputable def verdictsAt (rules : List Rule) (p : Place) : List Violation :=
  rules.flatMap fun r => ((r.finding? file tree p).bind (a.outcome file.content r)).toList

/-- A violation of the output comes from the call at a place: an active rule reports the call, and
the violation is what is left of the report. -/
structure Answers (p : Place) (v : Violation) : Prop where
  call : p.node.kind = .callExpression
  offset : v.location.offset = p.node.span.start
  report : ∃ r ∈ a.activeRules file, ∃ w, r.finding? file tree p = some w ∧
    r.Reported file p.node w ∧ a.outcome file.content r w = some v

/-! ### Single places -/

/-- Neither directives nor settings move a violation. -/
lemma location_of_outcome {content : String} {r : Rule} {v w : Violation}
    (h : a.outcome content r v = some w) : w.location = v.location := by
  obtain ⟨u, hu, rfl⟩ := Option.map_eq_some_iff.1 h
  have hsettled := r.settled_settle (Directives.onLine? content v.location.line)
    (Directives.onLine? content (v.location.line - 1)) v
  rw [hu] at hsettled
  cases hsettled with
  | kept => rfl
  | replaced hd hreason hrequired hcode hrule hmessage hlocation => exact hlocation

variable {a file tree}

lemma mem_verdictsAt {rules : List Rule} {p : Place} {v : Violation} :
    v ∈ a.verdictsAt file tree rules p ↔
      ∃ r ∈ rules, ∃ w, r.finding? file tree p = some w ∧ a.outcome file.content r w = some v := by
  simp only [verdictsAt, List.mem_flatMap, Option.mem_toList, Option.bind_eq_some_iff]

lemma offset_of_reported {call : Node} (hspans : call.WellSpanned) {r : Rule} {v : Violation}
    (h : r.Reported file call v) : v.location.offset = call.span.start := by
  obtain ⟨target, htarget, hlocation⟩ := h.location
  have hstart : target.span.start = call.span.start := by
    cases hr : r.kind with
    | rawFactory =>
      rw [hr] at htarget
      exact hspans.spanned.call target htarget
    | identityLookup =>
      rw [hr] at htarget
      rw [← Option.some.inj htarget]
  rw [hlocation]
  exact hstart

lemma answers_of_mem (hspans : tree.WellSpanned) {p : Place} (hp : p ∈ tree.places)
    {v : Violation} (hv : v ∈ a.verdictsAt file tree (a.activeRules file) p) :
    a.Answers file tree p v := by
  obtain ⟨r, hr, w, hw, houtcome⟩ := mem_verdictsAt.1 hv
  have hreported := Rule.reported_of_finding? hw
  have hnode : p.node.WellSpanned := hspans.inner (Node.node_mem_preorder hp)
  refine ⟨hreported.isSpelledCall.kind_eq, ?_, r, hr, w, hw, hreported, houtcome⟩
  rw [location_of_outcome a houtcome, offset_of_reported hnode hreported]

variable (a file tree) in
/-- Rules of different kinds do not speak about the same place. -/
lemma length_verdictsAt {rules : List Rule} (hrules : (rules.map Rule.kind).Nodup) (p : Place) :
    (a.verdictsAt file tree rules p).length ≤ 1 := by
  induction rules with
  | nil => simp [verdictsAt]
  | cons r rules ih =>
    obtain ⟨hnew, hrest⟩ := List.nodup_cons.1 hrules
    cases hv : (r.finding? file tree p).bind (a.outcome file.content r) with
    | none => simpa [verdictsAt, hv] using ih hrest
    | some v =>
      obtain ⟨w, hw, -⟩ := Option.bind_eq_some_iff.1 hv
      -- the spelling of a call that is reported tells the kind of the rule that reports it
      have hothers : a.verdictsAt file tree rules p = [] := by
        refine List.eq_nil_iff_forall_not_mem.2 fun v' hv' => ?_
        obtain ⟨r', hr', w', hw', -⟩ := mem_verdictsAt.1 hv'
        have hkind := (Rule.reported_of_finding? hw).ruleKind_eq (Rule.reported_of_finding? hw')
        exact hnew (hkind ▸ List.mem_map_of_mem hr')
      rw [verdictsAt] at hothers
      simp [verdictsAt, hv, hothers]

/-! ### The whole tree -/

section Order

variable (hspans : tree.WellSpanned) (hrules : (a.rules.map Rule.kind).Nodup)

include hrules in
lemma nodup_kind_activeRules (file : SourceFile) :
    ((a.activeRules file).map Rule.kind).Nodup :=
  hrules.sublist ((List.filter_sublist.trans List.filter_sublist).map Rule.kind)

include hrules in
lemma verdictsAt_activeRules_eq (p : Place) :
    a.verdictsAt file tree (a.activeRules file) p =
      (a.verdictsAt file tree (a.activeRules file) p).head?.toList := by
  have hlength := a.length_verdictsAt file tree (nodup_kind_activeRules hrules file) p
  match hl : a.verdictsAt file tree (a.activeRules file) p with
  | [] => rfl
  | [v] => rfl
  | v :: w :: vs => simp [hl] at hlength

include hspans hrules in
/-- What is left of the findings at the places of a tree, in pre-order, is in the order of the
offsets. -/
lemma pairwise_verdictsAt (file : SourceFile) :
    (tree.places.flatMap (a.verdictsAt file tree (a.activeRules file))).Pairwise
      fun v w => v.location.offset < w.location.offset := by
  refine List.pairwise_flatMap.2 ⟨fun p _ => ?_, ?_⟩
  · rw [verdictsAt_activeRules_eq hrules]
    cases (a.verdictsAt file tree (a.activeRules file) p).head? <;> simp
  · refine (Node.places_sorted tree).imp_of_mem fun {p q} hp hq hlt v hv w hw => ?_
    have hpv := answers_of_mem hspans hp hv
    have hqw := answers_of_mem hspans hq hw
    obtain ⟨r, -, u, -, hpreported, -⟩ := hpv.report
    obtain ⟨r', -, u', -, hqreported, -⟩ := hqw.report
    rw [hpv.offset, hqw.offset]
    exact hspans.start_lt_start hp hq hlt hpreported.isSpelledCall hqreported.isSpelledCall

end Order

lemma precedes_iff {v w : Violation} : precedes v w = true ↔
    v.location.offset < w.location.offset ∨
      v.location.offset = w.location.offset ∧ w.location.length ≤ v.location.length := by
  simp [precedes]

lemma precedes_trans (u v w : Violation) (huv : precedes u v = true) (hvw : precedes v w = true) :
    precedes u w = true := by
  rw [precedes_iff] at *
  omega

lemma precedes_total (v w : Violation) : (precedes v w || precedes w v) = true := by
  rw [Bool.or_eq_true, precedes_iff, precedes_iff]
  omega

/-- Sorting finds the one arrangement in which the offsets increase, if there is one. -/
lemma mergeSort_eq_of_increasing {vs ws : List Violation} (hperm : vs.Perm ws)
    (hws : ws.Pairwise fun v w => v.location.offset < w.location.offset) :
    vs.mergeSort precedes = ws := by
  have hsorted : (vs.mergeSort precedes).Perm ws := (List.mergeSort_perm _ _).trans hperm
  have hdistinct : (ws.map (·.location.offset)).Nodup :=
    List.pairwise_map.2 (hws.imp Nat.ne_of_lt)
  refine List.Perm.eq_of_pairwise ?_
    (List.pairwise_mergeSort precedes_trans precedes_total vs)
    (hws.imp fun h => precedes_iff.2 (Or.inl h)) hsorted
  -- two violations that precede each other have one offset, and `ws` has no two of them
  intro v w hv hw hvw hwv
  rw [precedes_iff] at hvw hwv
  exact List.inj_on_of_nodup_map hdistinct (hsorted.mem_iff.1 hv) hw (by omega)

/-- What the rules find, rule by rule, is what they find place by place. -/
lemma perm_verdictsAt (htree : tree.DistinctFunctions) (rules : List Rule) :
    List.Perm
      (rules.flatMap fun r =>
        ((Check.start r).behind file tree).found.filterMap (a.outcome file.content r))
      (tree.places.flatMap (a.verdictsAt file tree rules)) := by
  simp only [Rule.found_behind _ file htree, List.filterMap_filterMap]
  simp only [List.filterMap_eq_flatMap_toList]
  exact perm_flatMap_flatMap _ _ _

/-- Sorting by offset leads back to the order of the visits. -/
lemma checkTree_eq_flatMap (htree : tree.DistinctFunctions) (hspans : tree.WellSpanned)
    (hrules : (a.rules.map Rule.kind).Nodup) :
    a.checkTree file tree =
      tree.places.flatMap (a.verdictsAt file tree (a.activeRules file)) := by
  rw [checkTree_eq]
  exact mergeSort_eq_of_increasing (perm_verdictsAt htree _)
    (pairwise_verdictsAt hspans hrules file)

/-- The order of the rules is lost. -/
lemma checkTree_eq_of_perm (htree : tree.DistinctFunctions) (hspans : tree.WellSpanned)
    (hrules : (a.rules.map Rule.kind).Nodup) {rules : List Rule} (hperm : rules.Perm a.rules) :
    ({ a with rules := rules } : Analyzer).checkTree file tree = a.checkTree file tree := by
  have hactive : (({ a with rules := rules } : Analyzer).activeRules file).Perm
      (a.activeRules file) := (hperm.filter _).filter _
  rw [checkTree_eq_flatMap htree hspans hrules, checkTree_eq]
  refine mergeSort_eq_of_increasing ?_ (pairwise_verdictsAt hspans hrules file)
  exact (hactive.flatMap_right _).trans (perm_verdictsAt htree _)

/-- The output comes from calls in pre-order, one violation from each. -/
lemma exists_sites (htree : tree.DistinctFunctions) (hspans : tree.WellSpanned)
    (hrules : (a.rules.map Rule.kind).Nodup) :
    ∃ sites : List Place, sites.Sublist tree.places ∧
      List.Forall₂ (a.Answers file tree) sites (a.checkTree file tree) := by
  classical
  let rules := a.activeRules file
  have hall : a.checkTree file tree =
      tree.places.filterMap fun p => (a.verdictsAt file tree rules p).head? := by
    rw [checkTree_eq_flatMap htree hspans hrules, List.filterMap_eq_flatMap_toList]
    exact List.flatMap_congr fun p _ => verdictsAt_activeRules_eq hrules p
  refine ⟨tree.places.filter fun p => ∃ v, (a.verdictsAt file tree rules p).head? = some v,
    List.filter_sublist, ?_⟩
  have hsites := forall₂_filterMap (R := fun p v => v ∈ a.verdictsAt file tree rules p)
    (fun p => Iff.rfl) (fun p v hv => List.mem_of_head? hv) tree.places
  rw [hall]
  refine ((List.forall₂_and_left _ _).2 ⟨fun p hp => List.mem_of_mem_filter hp, hsites⟩).imp ?_
  intro p v hpv
  exact answers_of_mem hspans hpv.1 hpv.2

/-- The output comes in the order of the visits, whatever the order of the rules: offsets increase
strictly, the violations come from calls in pre-order, one from each, and rules in another order
give the same output.  What a rule has to say is what its check finds, and the tree may be that of a
source text. -/
theorem checkTree_in_visitation_order (a : Analyzer) (file : SourceFile) (tree : Node)
    (htree : tree.DistinctFunctions) (hspans : tree.WellSpanned)
    (hrules : (a.rules.map Rule.kind).Nodup) :
    ((a.checkTree file tree).Pairwise fun v w => v.location.offset < w.location.offset) ∧
      (∃ sites : List Place, sites.Sublist tree.places ∧
        List.Forall₂ (a.Answers file tree) sites (a.checkTree file tree)) ∧
      (∀ rules : List Rule, rules.Perm a.rules →
        ({ a with rules := rules } : Analyzer).checkTree file tree = a.checkTree file tree) ∧
      (∀ r : Rule, ((Check.start r).behind file tree).found =
        tree.places.filterMap (r.finding? file tree)) ∧
      ∀ path content, a.checkSource path content =
        a.checkTree (.new path content a.root) (SourceFile.new path content a.root).tree := by
  refine ⟨?_, exists_sites htree hspans hrules, ?_, fun r => r.found_behind file htree, ?_⟩
  · rw [checkTree_eq_flatMap htree hspans hrules]
    exact pairwise_verdictsAt hspans hrules file
  · exact fun rules hperm => checkTree_eq_of_perm htree hspans hrules hperm
  · exact fun path content => rfl

/-- A lookup in a handler with a call of a raw factory for its argument: the lookup begins first,
though the rules come in the other order. -/
theorem checkTree_in_visitation_order_nested :
    let tree := Node.mk 0 .other ⟨0, 60⟩
      [.importing 1 ⟨0, 10⟩ "./_generated/server" "query" "q",
        .importing 2 ⟨10, 20⟩ "./auth" "authenticatedQuery" "aq",
        .mk 3 .call ⟨20, 60⟩
          [.mk 4 (.identifier "aq") ⟨20, 22⟩ [],
            .mk 5 .arguments ⟨22, 60⟩
              [.mk 6 .object ⟨23, 59⟩
                [.mk 7 (.pair (some "handler")) ⟨24, 58⟩
                  [.mk 8 .function ⟨33, 58⟩
                    [.mk 9 .call ⟨39, 58⟩
                      [.mk 10 (.member (some "getUserIdentity")) ⟨39, 54⟩
                          [.mk 11 (.member (some "auth")) ⟨39, 47⟩
                            [.mk 12 (.identifier "ctx") ⟨39, 42⟩ []]],
                        .mk 13 .arguments ⟨54, 58⟩
                          [.mk 14 .call ⟨55, 57⟩ [.mk 15 (.identifier "q") ⟨55, 56⟩ []]]]]]]]]]
    let file : SourceFile := ⟨⟨"/repo/convex/notes.ts"⟩, ⟨"convex/notes.ts"⟩, ""⟩
    let a : Analyzer := ⟨⟨"/repo"⟩, Rule.all .standard, [], .standard⟩
    tree.DistinctFunctions ∧ tree.WellSpanned ∧ (a.rules.map Rule.kind).Nodup ∧
      ((a.checkTree file tree).map fun v => (v.code, v.location.offset)) =
        [("AUTH002", 39), ("AUTH001", 55)] ∧
      (∃ sites : List Place, sites.Sublist tree.places ∧
        List.Forall₂ (a.Answers file tree) sites (a.checkTree file tree)) ∧
      ({ a with rules := a.rules.reverse } : Analyzer).checkTree file tree =
        a.checkTree file tree := by
  intro tree file a
  have htree : tree.DistinctFunctions := by decide +kernel
  have hspans : tree.WellSpanned := by decide +kernel
  have hrules : (a.rules.map Rule.kind).Nodup := by decide +kernel
  obtain ⟨-, hsites, hperm, -⟩ := checkTree_in_visitation_order a file tree htree hspans hrules
  -- rule by rule, the call of the factory comes first
  have hreverse : a.checkTree file tree =
      ((a.enabledRules.filter (!·.exempts file)).flatMap fun r =>
        ((Check.start r).behind file tree).found.filterMap
          (a.outcome file.content r)).reverse := by
    rw [checkTree_eq]
    exact mergeSort_eq_of_increasing (List.reverse_perm _).symm (by decide +kernel)
  refine ⟨htree, hspans, hrules, ?_, hsites, hperm _ (List.reverse_perm a.rules)⟩
  rw [hreverse]
  decide +kernel

end Analyzer

end IdentityLint
