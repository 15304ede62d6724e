import IdentityLint.Check
import IdentityLint.Proofs.ImportBindings
import IdentityLint.Proofs.Traversal
import Mathlib.Data.List.Forall2

/-!
# What a check finds

A check is a rule with a state that is carried from visit to visit.  `Check.behind` is a single
check behind a walk over a tree; checks that share a walk do not notice each other
(`Check.walk_map_observe`).

To see what a check finds, the walk is read as a fold over the places of the tree
(`foldl_eq_of_map_eq`), and the fold is followed by an invariant that ties the state to the places
already visited.  If under the invariant every place adds to the findings what a fixed function
says about it, then the findings are what the function says about all places, in order
(`foldl_emits`).
-/

namespace IdentityLint

open Syntax

/-! ### Folds -/

section Folds

variable {σ α β γ : Type}

/-- Folds over lists that agree in what the steps depend on. -/
lemma foldl_eq_of_map_eq {f : σ → α → σ} {g : σ → β → σ} {k : α → γ} {k' : β → γ} {l : List α}
    {m : List β} (h : l.map k = m.map k') (hfg : ∀ s a b, k a = k' b → f s a = g s b) (s : σ) :
    l.foldl f s = m.foldl g s := by
  induction l generalizing m s with
  | nil =>
    obtain rfl : m = [] := List.map_eq_nil_iff.1 h.symm
    rfl
  | cons a l ih =>
    obtain ⟨b, m, rfl, hb, hm⟩ := List.map_eq_cons_iff.1 h.symm
    rw [List.foldl_cons, List.foldl_cons, hfg s a b hb.symm, ih hm.symm]

/-- A fold whose steps add to its output what `emit` says, as long as an invariant holds that every
step restores. -/
lemma foldl_emits {step : σ → α → σ} (out : σ → List β) {emit : α → Option β}
    (Inv : List α → σ → Prop) {l : List α}
    (hstep : ∀ done a rest, l = done ++ a :: rest → ∀ s, Inv done s →
      Inv (done ++ [a]) (step s a) ∧ out (step s a) = out s ++ (emit a).toList)
    {init : σ} (hinit : Inv [] init) :
    out (l.foldl step init) = out init ++ l.filterMap emit := by
  -- the induction is on what is left of `l`; the invariant speaks of what is done
  have hrun : ∀ rest done, l = done ++ rest → ∀ s, Inv done s →
      out (rest.foldl step s) = out s ++ rest.filterMap emit := by
    intro rest
    induction rest with
    | nil => intro done _ s _; simp
    | cons a rest ih =>
      intro done hl s hs
      obtain ⟨hinv, hout⟩ := hstep done a rest hl s hs
      rw [List.foldl_cons, ih (done ++ [a]) (by simpa using hl) _ hinv, hout, List.append_assoc,
        List.filterMap_cons]
      cases emit a <;> rfl
  exact hrun l [] rfl init hinit

/-- What `emit` says, element by element. -/
lemma forall₂_filterMap {P : α → Prop} [DecidablePred P] {R : α → β → Prop}
    {emit : α → Option β} (hP : ∀ a, P a ↔ ∃ b, emit a = some b)
    (hR : ∀ a b, emit a = some b → R a b) (l : List α) :
    List.Forall₂ R (l.filter P) (l.filterMap emit) := by
  induction l with
  | nil => exact List.Forall₂.nil
  | cons a l ih =>
    rw [List.filter_cons, List.filterMap_cons]
    cases h : emit a with
    | none =>
      have hnot : ¬P a := fun ha => by
        obtain ⟨b, hb⟩ := (hP a).1 ha
        exact absurd (h.symm.trans hb) (by simp)
      rw [if_neg (by simpa using hnot)]
      exact ih
    | some b =>
      have ha : P a := (hP a).2 ⟨b, h⟩
      rw [if_pos (by simpa using ha)]
      exact List.Forall₂.cons (hR a b h) ih

end Folds

/-- A walk whose observer leaves its state alone at nodes of kind `other` is a fold over all nodes
of the tree. -/
lemma foldl_visits {σ : Type} {f : σ → Visit → σ} (hother : ∀ s v, v.kind = .other → f s v = s)
    (tree : Node) (s : σ) : tree.visits.foldl f s = (tree.visitsFrom .empty).foldl f s := by
  rw [Node.visits, List.foldl_filter]
  congr 1
  funext s v
  by_cases hv : v.kind = .other
  · simp [hv, hother]
  · simp [hv]

/-! ### Checks -/

/-- The functions of the tree of a file are distinct: the tree is numbered. -/
lemma SourceFile.distinctFunctions_tree (file : SourceFile) : file.tree.DistinctFunctions :=
  Node.distinctFunctions_numbered _

namespace Check

lemma start?_of_not_exempt {r : Rule} {file : SourceFile} (h : r.exempts file = false) :
    start? r file = some (start r) := by
  rw [start?, h]
  rfl

lemma rule_visit (file : SourceFile) (c : Check) (v : Visit) : (c.visit file v).rule = c.rule := by
  rw [visit]
  split <;> rfl

lemma rule_observe (file : SourceFile) (c : Check) (v : Visit) :
    (c.observe file v).rule = c.rule := by
  rw [observe]
  split
  · exact rule_visit file c v
  · rfl

/-- A check as a subscriber of a walk. -/
def subscriber (file : SourceFile) (c : Check) : Subscriber Check :=
  ⟨c.rule.interests, visit file, c⟩

lemma deliver_subscriber (file : SourceFile) (c : Check) (v : Visit) :
    (c.subscriber file).deliver v = (c.observe file v).subscriber file := by
  rw [Subscriber.deliver, subscriber, subscriber, rule_observe, observe]
  split <;> rfl

/-- The checks of a file follow the walk over its tree as subscribers. -/
lemma map_subscriber_runAll (file : SourceFile) (checks : List Check) :
    (runAll file checks).map (subscriber file) =
      file.tree.walk Subscriber.dispatch (checks.map (subscriber file)) := by
  have hdispatch : ∀ (cs : List Check) (v : Visit),
      Subscriber.dispatch (cs.map (subscriber file)) v =
        (cs.map fun c => c.observe file v).map (subscriber file) := by
    intro cs v
    rw [Subscriber.dispatch, List.map_map, List.map_map]
    exact List.map_congr_left fun c _ => deliver_subscriber file c v
  rw [runAll, Node.walk_eq_foldl, Node.walk_eq_foldl,
    List.foldl_hom (List.map (subscriber file)) hdispatch]

/-- A check behind a walk over a tree. -/
def behind (file : SourceFile) (tree : Node) (c : Check) : Check :=
  tree.walk (fun c v => c.observe file v) c

/-- Checks that share a walk do not notice each other. -/
lemma walk_map_observe (file : SourceFile) (tree : Node) (checks : List Check) :
    tree.walk (fun cs v => cs.map fun c => c.observe file v) checks =
      checks.map (behind file tree) := by
  rw [Node.walk_eq_foldl, foldl_map_each]
  refine List.map_congr_left fun c _ => ?_
  rw [behind, Node.walk_eq_foldl]

section Rules

variable (r : Rule) (file : SourceFile)

/-- A check of one rule behind a walk: its state is folded over all nodes of the tree. -/
lemma behind_eq {σ : Type} {wrap : σ → CheckState} {step : σ → Visit → σ}
    (hobserve : ∀ s v, (Check.mk r (wrap s)).observe file v = ⟨r, wrap (step s v)⟩)
    (hother : ∀ s v, v.kind = .other → step s v = s) (tree : Node) (s : σ) :
    (Check.mk r (wrap s)).behind file tree =
      ⟨r, wrap ((tree.visitsFrom .empty).foldl step s)⟩ := by
  rw [behind, Node.walk_eq_foldl, List.foldl_hom (fun s => Check.mk r (wrap s)) hobserve,
    foldl_visits hother]

lemma found_behind_rawFactory (hr : r.kind = .rawFactory) (tree : Node) :
    ((start r).behind file tree).found =
      ((tree.visitsFrom .empty).foldl (RawFactory.visit r.conventions r.severity file)
        (RawFactory.start r.conventions)).found := by
  have hobserve : ∀ s v, (Check.mk r (.rawFactory s)).observe file v =
      ⟨r, .rawFactory (RawFactory.visit r.conventions r.severity file s v)⟩ := by
    intro s v
    rw [observe, Rule.interests, hr, visit]
    cases hv : v.kind <;> simp [RuleKind.interests, RawFactory.visit, hv]
  have hother : ∀ s v, v.kind = .other →
      RawFactory.visit r.conventions r.severity file s v = s := by
    intro s v hv
    rw [RawFactory.visit, hv]
  have hstart : start r = ⟨r, .rawFactory (RawFactory.start r.conventions)⟩ := by rw [start, hr]
  rw [hstart, behind_eq r file hobserve hother]
  rfl

lemma found_behind_identityLookup (hr : r.kind = .identityLookup) (tree : Node) :
    ((start r).behind file tree).found =
      ((tree.visitsFrom .empty).foldl (IdentityLookup.visit r.conventions r.severity file)
        (IdentityLookup.start r.conventions)).found := by
  have hobserve : ∀ s v, (Check.mk r (.identityLookup s)).observe file v =
      ⟨r, .identityLookup (IdentityLookup.visit r.conventions r.severity file s v)⟩ := by
    intro s v
    rw [observe, Rule.interests, hr, visit]
    cases hv : v.kind <;> simp [RuleKind.interests, IdentityLookup.visit, hv]
  have hother : ∀ s v, v.kind = .other →
      IdentityLookup.visit r.conventions r.severity file s v = s := by
    intro s v hv
    rw [IdentityLookup.visit, hv]
  have hstart : start r = ⟨r, .identityLookup (IdentityLookup.start r.conventions)⟩ := by
    rw [start, hr]
  rw [hstart, behind_eq r file hobserve hother]
  rfl

end Rules

end Check

end IdentityLint
