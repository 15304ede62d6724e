import IdentityLint.Scope
import Mathlib.Data.List.Infix
import Mathlib.Tactic.Lemma

/-!
# The walk outward through the function scopes

The functions around the current place are read off the records of a scope chain, one record
after the other, and not off its stack of open functions.  A chain is *linked* if its records
lead from every open function to the next one outside it.  In a linked chain the walk outward
meets exactly the open functions and then ends (`Linked.ancestorsUpTo_eq`).

Entering a function that is not open and leaving one keep a chain linked.
-/

namespace IdentityLint.ScopeChain

variable {s : ScopeChain} {f g : FunctionId}

/-- The record of every open function names the open function next to it on the outside. -/
structure Linked (s : ScopeChain) : Prop where
  enclosing : ∀ f rest, f :: rest <:+ s.opened → s.enclosing? f = rest.head?
  recorded : s.opened.length ≤ s.entered.length

lemma enclosing?_enter_self (s : ScopeChain) (f : FunctionId) :
    (s.enter f).enclosing? f = s.innermost? := by
  simp [enclosing?, enter]

lemma enclosing?_enter_of_ne (h : g ≠ f) : (s.enter f).enclosing? g = s.enclosing? g := by
  have hne : (g == f) = false := by simpa using h
  simp [enclosing?, enter, List.lookup_cons, hne]

lemma linked_empty : empty.Linked :=
  ⟨fun f rest h => absurd (List.eq_nil_of_suffix_nil h) (by simp), Nat.le_refl 0⟩

namespace Linked

lemma enter (h : s.Linked) (hf : f ∉ s.opened) : (s.enter f).Linked := by
  refine ⟨fun g rest hg => ?_, Nat.succ_le_succ h.recorded⟩
  rcases List.suffix_cons_iff.1 hg with heq | hin
  · obtain ⟨rfl, rfl⟩ : g = f ∧ rest = s.opened := by simpa using heq
    exact enclosing?_enter_self s g
  · have hne : g ≠ f := by
      rintro rfl
      exact hf (hin.subset List.mem_cons_self)
    rw [enclosing?_enter_of_ne hne]
    exact h.enclosing g rest hin

lemma exit (h : s.Linked) : s.exit.Linked := by
  refine ⟨fun g rest hg => h.enclosing g rest (hg.trans (List.tail_suffix _)), ?_⟩
  have htail : s.opened.tail.length ≤ s.opened.length := by simp
  exact htail.trans h.recorded

/-- The walk outward from an open function meets the open functions from there on. -/
lemma outward_eq (h : s.Linked) {l : List FunctionId} (hl : l <:+ s.opened) (n : Nat) :
    s.outward n l.head? = l.take n := by
  induction n generalizing l with
  | zero => rfl
  | succ n ih =>
    cases l with
    | nil => rfl
    | cons f rest =>
      rw [List.head?_cons, outward, h.enclosing f rest hl, List.take_succ_cons,
        ih ((List.suffix_cons f rest).trans hl)]

lemma ancestorsUpTo_eq (h : s.Linked) (n : Nat) : s.ancestorsUpTo n = s.opened.take n :=
  h.outward_eq (List.suffix_refl _) n

lemma ancestors_eq (h : s.Linked) : s.ancestors = s.opened := by
  rw [ancestors, h.ancestorsUpTo_eq, List.take_of_length_le h.recorded]

end Linked

end IdentityLint.ScopeChain
