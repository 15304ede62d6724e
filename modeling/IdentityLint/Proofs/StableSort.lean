import Mathlib.Data.List.Basic
import Mathlib.Tactic.Lemma

/-!
# Stable sorting

A list is the stable sort of another one if it has the same elements in order, and elements that
tie stand in it as they stood before.  There is exactly one such list, and merge sort finds it
(`stableSort_iff`).  Hence the outcome depends on nothing but the sequences of elements that tie,
and

* sorting parts of a list first changes nothing (`mergeSort_flatMap_mergeSort`);
* elements that are left out before sorting leave the others as they are
  (`mergeSort_sublist_mergeSort`).
-/

namespace IdentityLint

variable {α β : Type}

/-- Each of two elements may stand in front of the other. -/
def tied (le : α → α → Bool) (a b : α) : Bool := le a b && le b a

/-- The list `m` holds the elements of `l` in order, and those that tie as they stand in `l`. -/
structure StableSort (le : α → α → Bool) (l m : List α) : Prop where
  perm : m.Perm l
  sorted : m.Pairwise fun a b => le a b = true
  ties : ∀ a, m.filter (tied le a) = l.filter (tied le a)

section Order

variable {le : α → α → Bool} (trans : ∀ a b c, le a b = true → le b c = true → le a c = true)
  (total : ∀ a b, (le a b || le b a) = true)

include total in
lemma tied_self (a : α) : tied le a a = true := by
  have haa := total a a
  rw [Bool.or_self] at haa
  rw [tied, haa]
  rfl

include total in
/-- An element occurs among those that tie with it. -/
lemma mem_of_ties {l m : List α} (h : ∀ a, l.filter (tied le a) = m.filter (tied le a)) {a : α}
    (ha : a ∈ l) : a ∈ m := by
  have hmem : a ∈ l.filter (tied le a) := List.mem_filter.2 ⟨ha, tied_self total a⟩
  rw [h a] at hmem
  exact List.mem_of_mem_filter hmem

include total in
/-- Lists that are in order and agree in their ties are the same. -/
lemma eq_of_ties {l m : List α} (hl : l.Pairwise fun a b => le a b = true)
    (hm : m.Pairwise fun a b => le a b = true)
    (h : ∀ a, l.filter (tied le a) = m.filter (tied le a)) : l = m := by
  induction l generalizing m with
  | nil =>
    refine (List.eq_nil_iff_forall_not_mem.2 fun b hb => ?_).symm
    exact absurd (mem_of_ties total (fun a => (h a).symm) hb) (by simp)
  | cons a l ih =>
    cases m with
    | nil => exact absurd (mem_of_ties total h List.mem_cons_self) (by simp)
    | cons b m =>
      -- each of the first elements occurs in the other list, so they tie; and of the elements that
      -- tie with them, they are the first
      have hab : tied le a b = true := by
        have hle : ∀ {x y : α} {zs : List α},
            (y :: zs).Pairwise (fun a b => le a b = true) → x ∈ y :: zs → le y x = true := by
          intro x y zs hzs hx
          rcases List.mem_cons.1 hx with rfl | hx
          · exact (Bool.and_eq_true_iff.1 (tied_self total x)).1
          · exact List.rel_of_pairwise_cons hzs hx
        have hb : b ∈ a :: l := mem_of_ties total (fun c => (h c).symm) List.mem_cons_self
        have ha : a ∈ b :: m := mem_of_ties total h List.mem_cons_self
        rw [tied, hle hl hb, hle hm ha]
        rfl
      have hfirst := h a
      rw [List.filter_cons_of_pos (tied_self total a), List.filter_cons_of_pos hab] at hfirst
      obtain rfl : a = b := (List.cons.inj hfirst).1
      rw [ih hl.of_cons hm.of_cons fun c => ?_]
      have hc := h c
      rw [List.filter_cons, List.filter_cons] at hc
      split at hc
      · exact (List.cons.inj hc).2
      · exact hc

include trans total

/-- Merge sort does not change the order of elements that tie. -/
lemma filter_tied_mergeSort (l : List α) (a : α) :
    (l.mergeSort le).filter (tied le a) = l.filter (tied le a) := by
  have hperm : ((l.mergeSort le).filter (tied le a)).Perm (l.filter (tied le a)) :=
    (List.mergeSort_perm l le).filter _
  have hties : (l.filter (tied le a)).Pairwise fun b c => le b c = true := by
    refine List.pairwise_of_forall_mem_list fun b hb c hc => ?_
    obtain ⟨-, hba⟩ := Bool.and_eq_true_iff.1 (List.mem_filter.1 hb).2
    obtain ⟨hac, -⟩ := Bool.and_eq_true_iff.1 (List.mem_filter.1 hc).2
    exact trans b a c hba hac
  have hsub := (List.sublist_mergeSort trans total hties List.filter_sublist).filter (tied le a)
  simp only [List.filter_filter, Bool.and_self] at hsub
  exact (hsub.eq_of_length hperm.length_eq.symm).symm

lemma stableSort_mergeSort (l : List α) : StableSort le l (l.mergeSort le) where
  perm := List.mergeSort_perm l le
  sorted := List.pairwise_mergeSort trans total l
  ties := filter_tied_mergeSort trans total l

/-- There is one stable sort of a list, and merge sort finds it. -/
lemma stableSort_iff {l m : List α} : StableSort le l m ↔ m = l.mergeSort le := by
  constructor
  · intro h
    refine eq_of_ties total h.sorted (List.pairwise_mergeSort trans total l) fun a => ?_
    rw [h.ties, filter_tied_mergeSort trans total]
  · rintro rfl
    exact stableSort_mergeSort trans total l

/-- Sorting parts of a list first changes nothing. -/
lemma mergeSort_flatMap_mergeSort (l : List β) (f : β → List α) :
    (l.flatMap fun b => (f b).mergeSort le).mergeSort le = (l.flatMap f).mergeSort le := by
  refine eq_of_ties total (List.pairwise_mergeSort trans total _)
    (List.pairwise_mergeSort trans total _) fun a => ?_
  rw [filter_tied_mergeSort trans total, filter_tied_mergeSort trans total, List.filter_flatMap,
    List.filter_flatMap]
  exact List.flatMap_congr fun b _ => filter_tied_mergeSort trans total (f b) a

/-- The elements in front of a new element and those behind it can be told apart. -/
lemma mergeSort_cons_eq (a : α) (l : List α) :
    (a :: l).mergeSort le = (l.mergeSort le).filter (!le a ·) ++
      a :: (l.mergeSort le).filter (le a ·) := by
  obtain ⟨front, back, hcons, hrest, hfront⟩ := List.mergeSort_cons trans total a l
  have hsorted := List.pairwise_mergeSort trans total (a :: l)
  rw [hcons, List.pairwise_append, List.pairwise_cons] at hsorted
  have hback : ∀ b ∈ back, le a b = true := hsorted.2.1.1
  have hfront' : front.filter (le a ·) = [] :=
    List.filter_eq_nil_iff.2 fun b hb => by simpa using hfront b hb
  have hback' : back.filter (!le a ·) = [] :=
    List.filter_eq_nil_iff.2 fun b hb => by simp [hback b hb]
  rw [hcons, hrest, List.filter_append, List.filter_append, List.filter_eq_self.2 hfront,
    List.filter_eq_self.2 hback, hfront', hback', List.append_nil, List.nil_append]

/-- Elements that are left out before sorting leave the others as they are. -/
lemma mergeSort_sublist_mergeSort {l m : List α} (h : l.Sublist m) :
    (l.mergeSort le).Sublist (m.mergeSort le) := by
  induction h with
  | slnil => exact List.Sublist.refl _
  | @cons _ m a _ ih =>
    obtain ⟨front, back, hcons, hrest, -⟩ := List.mergeSort_cons trans total a m
    rw [hrest] at ih
    rw [hcons]
    exact ih.trans ((List.sublist_cons_self a back).append_left front)
  | cons_cons a _ ih =>
    rw [mergeSort_cons_eq trans total, mergeSort_cons_eq trans total]
    exact (ih.filter _).append ((ih.filter _).cons_cons a)

end Order

end IdentityLint
