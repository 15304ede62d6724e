import IdentityLint.Proofs.IdentityLookup
import IdentityLint.Proofs.MemberChains
import IdentityLint.Proofs.RawFactory

/-!
# The calls that rules report

Whatever a rule reports, it reports about a call at some place of the tree.  `Rule.finding?` is
what a rule has to say about a place, so the findings of its check are what it has to say about
all places, in pre-order (`Rule.found_behind`).

A reported call spells its callee out in names: the callee is a bare name for one kind of rules and
a dotted chain for the other (`Rule.Reported`).  Hence no call is reported by rules of both kinds.
-/

namespace IdentityLint

open Syntax

namespace RuleKind

/-- The kind of the callees of the calls that the rules of a kind report. -/
def calleeKind : RuleKind → NodeKind
  | rawFactory => .identifier
  | identityLookup => .memberExpression

/-- The node at which the rules of a kind report a call: the callee or the call itself. -/
def target? : RuleKind → Node → Option Node
  | rawFactory, call => call.callee?
  | identityLookup, call => some call

lemma calleeKind_injective : Function.Injective calleeKind := by
  intro k l h
  cases k <;> cases l <;> simp_all [calleeKind]

end RuleKind

namespace Rule

/-- What a rule has to say about a place of a tree. -/
noncomputable def finding? (r : Rule) (file : SourceFile) (tree : Node) (p : Place) :
    Option Violation :=
  match r.kind with
  | .rawFactory =>
    RawFactory.violation? r.conventions r.severity file
      (RawFactory.tableAt r.conventions tree p) p.node
  | .identityLookup => IdentityLookup.finding? r.conventions r.severity file tree p

/-- The check of a rule finds what the rule has to say about the places of the tree. -/
lemma found_behind (r : Rule) (file : SourceFile) {tree : Node} (htree : tree.DistinctFunctions) :
    ((Check.start r).behind file tree).found = tree.places.filterMap (r.finding? file tree) := by
  unfold finding?
  cases hr : r.kind with
  | rawFactory => exact RawFactory.found_behind_eq file tree r hr
  | identityLookup => exact IdentityLookup.found_behind_eq file tree r hr htree

/-- A call as rules report it: the callee has the right kind and is spelled out in names, and the
location is that of the callee or of the call. -/
structure Reported (r : Rule) (file : SourceFile) (call : Node) (v : Violation) : Prop where
  callee : ∃ callee, call.callee? = some callee ∧ callee.kind = r.kind.calleeKind ∧
    callee.memberChain?.isSome = true
  location : ∃ target, r.kind.target? call = some target ∧ v.location = file.location target

variable {r : Rule} {file : SourceFile} {tree : Node} {p : Place} {v : Violation}

lemma reported_of_finding? (h : r.finding? file tree p = some v) :
    r.Reported file p.node v := by
  rw [finding?] at h
  split at h
  · next hr =>
    obtain ⟨callee, name, b, banned, hcallee, hname, -, -, rfl⟩ :=
      (RawFactory.violation?_eq_some_iff _ _ _).1 h
    refine ⟨⟨callee, hcallee, ?_, ?_⟩, callee, ?_, rfl⟩
    · rw [hr, Node.kind, hname]
      rfl
    · rw [Node.memberChain?_of_name hname]
      rfl
    · rw [hr]
      exact hcallee
  · next hr =>
    rw [IdentityLookup.finding?] at h
    split at h
    · next hmisplaced =>
      obtain ⟨⟨callee, hcallee, hkind, hchain⟩, -⟩ := hmisplaced
      obtain rfl := Option.some.inj h
      refine ⟨⟨callee, hcallee, ?_, ?_⟩, p.node, ?_, rfl⟩
      · rw [hr, hkind]
        rfl
      · rw [hchain]
        rfl
      · rw [hr]
        rfl
    · cases h

lemma Reported.isSpelledCall {call : Node} (h : r.Reported file call v) : call.IsSpelledCall := by
  obtain ⟨callee, hcallee, -, hchain⟩ := h.callee
  exact ⟨callee, hcallee, hchain⟩

/-- Rules that report the same call are of the same kind. -/
lemma Reported.ruleKind_eq {r' : Rule} {file' : SourceFile} {call : Node} {v' : Violation}
    (h : r.Reported file call v) (h' : r'.Reported file' call v') : r.kind = r'.kind := by
  obtain ⟨callee, hcallee, hkind, -⟩ := h.callee
  obtain ⟨callee', hcallee', hkind', -⟩ := h'.callee
  obtain rfl : callee = callee' := Option.some.inj (hcallee.symm.trans hcallee')
  exact RuleKind.calleeKind_injective (hkind.symm.trans hkind')

end Rule

end IdentityLint
