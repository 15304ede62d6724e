import IdentityLint.Proofs.PathOrder
import IdentityLint.Proofs.StableSort
import IdentityLint.Report
import Mathlib.Data.List.Permutation
import Mathlib.Data.String.Basic

/-!
# The order of a report

Violations are sorted by path, line and column, and paths are compared component by component.  The
order is stated here without comparison functions (`Location.Precedes`): a path precedes another one
if its components do in lexicographic order, where a name is a component as a whole and void parts
do not count.  So `a//b`, `a/./b` and `a/b` tie, and `a/b` precedes `a.b`, although a slash comes
behind a dot.

Sorting a report is the stable sort in this order (`Report.stableSort_before_iff`), and reports can
be put together before or after they are sorted.
-/

namespace IdentityLint

/-! ### The order of paths -/

namespace Path

/-- A component stands in front of another one: their kinds decide, and the characters of names. -/
def Component.Precedes (a b : Component) : Prop :=
  a.rank < b.rank ∨ ∃ s t, a = .name s ∧ b = .name t ∧ s < t

/-- A path stands in front of another one: the first components that differ decide. -/
def Precedes (p q : Path) : Prop := List.Lex Component.Precedes p.components q.components

lemma Component.compare_eq_lt_iff {a b : Component} : a.compare b = .lt ↔ a.Precedes b := by
  rw [Precedes]
  cases a <;> cases b <;> simp [compare, rank, compare_lt_iff_lt]

lemma compare_eq_lt_iff {p q : Path} : p.compare q = .lt ↔ p.Precedes q := by
  rw [compare, Precedes]
  fun_induction compare.go p.components q.components with
  | case1 => simp
  | case2 => simp
  | case3 => simp
  | case4 a as b bs h ih =>
    obtain rfl := Std.LawfulEqCmp.eq_of_compare h
    have hself : ¬a.Precedes a := by simp [← Component.compare_eq_lt_iff, h]
    simp [List.cons_lex_cons_iff, ih, hself]
  | case5 a as b bs h =>
    have hne : a ≠ b := by
      rintro rfl
      exact h Std.ReflCmp.compare_self
    simp [List.cons_lex_cons_iff, Component.compare_eq_lt_iff, hne]

/-! ### The parts of a path -/

/-- Where two paths meet, the last part of the first joins the first part of the second. -/
lemma parts_append {p q : String} {init rest : List String} {last first : String}
    (hp : (Path.mk p).parts = init ++ [last]) (hq : (Path.mk q).parts = first :: rest) :
    (Path.mk (p ++ q)).parts = init ++ (last ++ first) :: rest := by
  rw [parts] at hp hq
  obtain ⟨init', last', hs, rfl, hlast⟩ := List.map_eq_append_iff.1 hp
  obtain ⟨l, hl, rfl⟩ := List.map_eq_singleton_iff.1 hlast
  subst hl
  obtain ⟨f, fs, ht, rfl, rfl⟩ := List.map_eq_cons_iff.1 hq
  rw [parts, String.toList_append, Text.splitAt_append hs ht, List.map_append, List.map_cons,
    String.ofList_append]

/-- A slash divides the parts in front of it from those behind it. -/
lemma parts_slash (front back : String) :
    (Path.mk (front ++ "/" ++ back)).parts = (Path.mk front).parts ++ (Path.mk back).parts := by
  obtain ⟨init, last, hfront⟩ := (List.eq_nil_or_concat' _).resolve_left (parts_ne_nil ⟨front⟩)
  have hback : (Path.mk ("/" ++ back)).parts = "" :: (Path.mk back).parts := by
    simp [parts, Text.splitAt]
  rw [String.append_assoc, parts_append hfront hback, hfront]
  simp

lemma named_append (ps qs : List String) : named (ps ++ qs) = named ps ++ named qs := by
  rw [named, List.filter_append, List.map_append, named, named]

lemma named_cons_of_isVoid {part : String} (h : isVoid part = true) (parts : List String) :
    named (part :: parts) = named parts := by
  rw [named, List.filter_cons_of_neg (by simp [h]), named]

lemma named_cons_of_not_isVoid {part : String} (h : isVoid part = false) (parts : List String) :
    named (part :: parts) = component part :: named parts := by
  rw [named, List.filter_cons_of_pos (by simp [h]), List.map_cons, named]

/-- A void part between others makes no difference. -/
lemma components_eq_of_isVoid {p q : Path} {init rest : List String} {part : String}
    (hinit : init ≠ []) (hrest : rest ≠ []) (hvoid : isVoid part = true)
    (hp : p.parts = init ++ part :: rest) (hq : q.parts = init ++ rest) :
    p.components = q.components := by
  obtain ⟨first, init, rfl⟩ := List.exists_cons_of_ne_nil hinit
  have hnamed : ∀ ps, named (ps ++ part :: rest) = named (ps ++ rest) := fun ps => by
    rw [named_append, named_cons_of_isVoid hvoid, named_append]
  have hall : named (first :: (init ++ part :: rest)) = named (first :: (init ++ rest)) :=
    hnamed (first :: init)
  rw [List.cons_append] at hp hq
  rw [components_of_parts hp, components_of_parts hq, hnamed, hall]
  simp [hrest]

/-- Two slashes, or slashes with a single dot between, count as one. -/
lemma components_slash_slash {part : String} (hparts : (Path.mk part).parts = [part])
    (hvoid : isVoid part = true) (front back : String) :
    (Path.mk (front ++ ("/" ++ part ++ "/") ++ back)).components =
      (Path.mk (front ++ "/" ++ back)).components := by
  refine components_eq_of_isVoid (parts_ne_nil ⟨front⟩) (parts_ne_nil ⟨back⟩) hvoid ?_
    (parts_slash front back)
  rw [← String.append_assoc, ← String.append_assoc, parts_slash, parts_slash, hparts,
    List.append_assoc, List.singleton_append]

/-- How the components of a path begin depends on the parts in front of the first that counts. -/
lemma exists_components_eq (init : List String) :
    ∃ lead, ∀ {p : Path} {part : String} {rest : List String}, isVoid part = false →
      p.parts = init ++ part :: rest → p.components = lead ++ component part :: named rest := by
  cases init with
  | nil =>
    refine ⟨[], fun {p part rest} hpart hp => ?_⟩
    have hne : part ≠ "" ∧ part ≠ "." := by simpa [isVoid] using hpart
    rw [components_of_parts hp, if_neg (by simp [hne]), if_neg hne.2,
      named_cons_of_not_isVoid hpart]
    rfl
  | cons first init =>
    refine ⟨if first = "" then .root :: named init else if first = "." then .here :: named init
      else named (first :: init), fun {p part rest} hpart hp => ?_⟩
    have hnamed : ∀ ps, named (ps ++ part :: rest) = named ps ++ component part :: named rest :=
      fun ps => by rw [named_append, named_cons_of_not_isVoid hpart]
    have hall : named (first :: (init ++ part :: rest)) =
        named (first :: init) ++ component part :: named rest := hnamed (first :: init)
    rw [List.cons_append] at hp
    rw [components_of_parts hp, hnamed, hall]
    split_ifs <;> simp_all

/-- A name that goes on behind a dot is a name, and its beginning precedes it. -/
lemma component_append_dot {part : String} (hpart : isVoid part = false) (more : String) :
    isVoid (part ++ ("." ++ more)) = false ∧
      component (part ++ ("." ++ more)) = .name (part ++ ("." ++ more)) ∧
      (component part).Precedes (.name (part ++ ("." ++ more))) := by
  have hne : part.toList ≠ [] ∧ part.toList ≠ ['.'] := by
    have hwords : part ≠ "" ∧ part ≠ "." := by simpa [isVoid] using hpart
    exact ⟨fun h => hwords.1 (String.toList_inj.1 h), fun h => hwords.2 (String.toList_inj.1 h)⟩
  have htext : (part ++ ("." ++ more)).toList = part.toList ++ '.' :: more.toList := by simp
  obtain ⟨x, xs, hxs⟩ := List.exists_cons_of_ne_nil hne.1
  refine ⟨?_, ?_, ?_⟩
  · simp [isVoid, ← String.toList_inj, htext, hxs]
  · have hdots : ¬(part ++ ("." ++ more)).toList = ['.', '.'] := by
      rw [htext, hxs, List.cons_append, List.cons.injEq]
      rintro ⟨rfl, hrest⟩
      cases xs with
      | nil => exact hne.2 hxs
      | cons y ys => simp at hrest
    rw [component, if_neg]
    rw [beq_iff_eq, ← String.toList_inj]
    exact hdots
  · rw [component]
    split
    · exact Or.inl (Nat.lt_succ_self 2)
    · refine Or.inr ⟨part, _, rfl, rfl, ?_⟩
      have hlonger : part.toList ++ [] < part.toList ++ '.' :: more.toList :=
        List.append_left_lt (List.nil_lt_cons _ _)
      rwa [List.append_nil, ← htext, ← String.lt_iff_toList_lt] at hlonger

/-- What is behind a slash comes before what continues the name in front of the slash. -/
lemma precedes_slash_dot {front : String}
    (hname : ∀ part ∈ (Path.mk front).parts.getLast?, isVoid part = false) (b c : String) :
    Precedes ⟨front ++ "/" ++ b⟩ ⟨front ++ "." ++ c⟩ := by
  obtain ⟨init, part, hfront⟩ := (List.eq_nil_or_concat' _).resolve_left (parts_ne_nil ⟨front⟩)
  have hpart : isVoid part = false := hname part (by simp [hfront])
  obtain ⟨more, rest, hmore⟩ := List.exists_cons_of_ne_nil (parts_ne_nil ⟨c⟩)
  have hdot : (Path.mk ("." ++ c)).parts = ("." ++ more) :: rest :=
    parts_append (show (Path.mk ".").parts = [] ++ ["."] by decide) hmore
  have hslash := parts_slash front b
  have hlonger := parts_append hfront hdot
  rw [hfront, List.append_assoc, List.singleton_append] at hslash
  rw [← String.append_assoc] at hlonger
  obtain ⟨hlong, hcomponent, hprecedes⟩ := component_append_dot hpart more
  obtain ⟨lead, hlead⟩ := exists_components_eq init
  rw [Precedes, hlead hpart hslash, hlead hlong hlonger, hcomponent]
  exact List.Lex.append_left _ (.rel hprecedes) lead

end Path

/-! ### The order of places -/

namespace Location

/-- What places are sorted by. -/
def key (l : Location) : List Path.Component × Nat × Nat := (l.file.components, l.line, l.column)

/-- A place stands in front of another one: in an earlier file, or in the same one on an earlier
line, or on the same one at an earlier column. -/
def Precedes (a b : Location) : Prop :=
  a.file.Precedes b.file ∨ a.file.components = b.file.components ∧
    (a.line < b.line ∨ a.line = b.line ∧ a.column < b.column)

lemma compare_eq_lt_iff {a b : Location} : a.compare b = .lt ↔ a.Precedes b := by
  rw [compare, Precedes, Ordering.then_eq_lt, Ordering.then_eq_lt, Path.compare_eq_lt_iff,
    Path.compare_eq_eq_iff, Nat.compare_eq_lt, Nat.compare_eq_lt, Nat.compare_eq_eq]

lemma compare_eq_eq_iff {a b : Location} : a.compare b = .eq ↔ a.key = b.key := by
  rw [compare, Ordering.then_eq_eq, Ordering.then_eq_eq, Path.compare_eq_eq_iff, Nat.compare_eq_eq,
    Nat.compare_eq_eq]
  simp [key]

instance : Std.TransCmp fun a b : Location => a.file.compare b.file where
  eq_swap := Std.OrientedCmp.eq_swap
  isLE_trans := Std.TransCmp.isLE_trans

lemma compare_eq_compareLex : compare = compareLex (fun a b => a.file.compare b.file)
    (compareLex (compareOn line) (compareOn column)) := rfl

instance : Std.TransCmp compare := by
  rw [compare_eq_compareLex]
  infer_instance

/-- One place does not compare greater than another one if the other one does not precede it. -/
lemma isLE_compare_iff {a b : Location} : (a.compare b).isLE = true ↔ ¬b.Precedes a := by
  have hswap : b.compare a = (a.compare b).swap := Std.OrientedCmp.eq_swap
  rw [← compare_eq_lt_iff, hswap]
  cases a.compare b <;> simp

end Location

/-! ### Sorting reports -/

namespace Report

/-- May a violation stand in front of another one in a report? -/
def before (v w : Violation) : Bool := (v.location.compare w.location).isLE

lemma before_trans (u v w : Violation) (huv : before u v = true) (hvw : before v w = true) :
    before u w = true :=
  Std.TransCmp.isLE_trans huv hvw

lemma before_total (v w : Violation) : (before v w || before w v) = true := by
  have hswap : w.location.compare v.location = (v.location.compare w.location).swap :=
    Std.OrientedCmp.eq_swap
  rw [before, before, hswap]
  cases v.location.compare w.location <;> rfl

/-- Violations tie if what places are sorted by is the same. -/
lemma tied_before (v w : Violation) :
    tied before v w = decide (w.location.key = v.location.key) := by
  have hswap : w.location.compare v.location = (v.location.compare w.location).swap :=
    Std.OrientedCmp.eq_swap
  rw [tied, before, before, Bool.eq_iff_iff, decide_eq_true_eq, eq_comm (a := w.location.key),
    ← Location.compare_eq_eq_iff, hswap]
  cases v.location.compare w.location <;> simp

lemma violations_sorted (r : Report) : r.sorted.violations = r.violations.mergeSort before := rfl

/-- The stable sort of violations, said without comparing. -/
lemma stableSort_before_iff {vs ws : List Violation} :
    StableSort before vs ws ↔ ws.Perm vs ∧
      (ws.Pairwise fun v w => ¬w.location.Precedes v.location) ∧
      ∀ key, ws.filter (·.location.key = key) = vs.filter (·.location.key = key) := by
  have hsorted : (fun v w => before v w = true) =
      fun v w : Violation => ¬w.location.Precedes v.location := by
    funext v w
    exact propext Location.isLE_compare_iff
  have hties : ∀ v, tied before v = fun w => decide (w.location.key = v.location.key) :=
    fun v => funext (tied_before v)
  constructor
  · rintro ⟨hperm, hordered, hstable⟩
    refine ⟨hperm, hsorted ▸ hordered, fun key => ?_⟩
    -- a key is the key of some violation, or nothing has it
    by_cases hkey : ∃ v ∈ vs, v.location.key = key
    · obtain ⟨v, -, rfl⟩ := hkey
      have hv := hstable v
      rwa [hties] at hv
    · have hnone : ∀ v ∈ vs, v.location.key ≠ key := fun v hv h => hkey ⟨v, hv, h⟩
      rw [List.filter_eq_nil_iff.2 (by simpa using fun v hv => hnone v (hperm.mem_iff.1 hv)),
        List.filter_eq_nil_iff.2 (by simpa using hnone)]
  · rintro ⟨hperm, hordered, hstable⟩
    refine ⟨hperm, hsorted ▸ hordered, fun v => ?_⟩
    rw [hties]
    exact hstable v.location.key

lemma sorted_append_sorted (r s : Report) :
    (r.sorted.append s.sorted).sorted = (r.append s).sorted := by
  have hparts := mergeSort_flatMap_mergeSort before_trans before_total [r, s] violations
  simp only [List.flatMap_cons, List.flatMap_nil, List.append_nil] at hparts
  exact congrArg (Report.mk · (r.filesChecked + s.filesChecked)) hparts

/-- The violations of a sorted report are the one list that holds those of the report in the order
of their places, and in their old order where the places tie.  The other figures of the report do not
change, and parts of it may be sorted first.  Paths tie if they differ in void parts only, and a
path precedes one in which its last name goes on. -/
theorem eq_violations_sorted_iff (r : Report) :
    (∀ vs, vs = r.sorted.violations ↔ vs.Perm r.violations ∧
      (vs.Pairwise fun v w => ¬w.location.Precedes v.location) ∧
      ∀ key, vs.filter (·.location.key = key) = r.violations.filter (·.location.key = key)) ∧
    (r.sorted.filesChecked = r.filesChecked ∧ ∀ s, r.sorted.count s = r.count s) ∧
    (∀ s : Report, (r.sorted.append s.sorted).sorted = (r.append s).sorted) ∧
    (∀ front back : String,
      (Path.mk (front ++ "//" ++ back)).components = (Path.mk (front ++ "/" ++ back)).components ∧
      (Path.mk (front ++ "/./" ++ back)).components = (Path.mk (front ++ "/" ++ back)).components) ∧
    ∀ front b c : String, (∀ part ∈ (Path.mk front).parts.getLast?, Path.isVoid part = false) →
      (Path.mk (front ++ "/" ++ b)).Precedes ⟨front ++ "." ++ c⟩ := by
  refine ⟨fun vs => ?_, ⟨rfl, fun s => ?_⟩, r.sorted_append_sorted, fun front back => ?_,
    fun front b c hname => Path.precedes_slash_dot hname b c⟩
  · rw [← stableSort_before_iff, stableSort_iff before_trans before_total, violations_sorted]
  · exact (List.mergeSort_perm r.violations before).countP_eq _
  · exact ⟨@Path.components_slash_slash "" (by decide) rfl front back,
      @Path.components_slash_slash "." (by decide) rfl front back⟩

/-- Three spellings of one path tie, and all of them come before a longer name. -/
theorem eq_violations_sorted_iff_spellings :
    let found : String → Nat → Violation := fun path line =>
      ⟨"AUTH001", "no-raw-convex-function", none, .error, ⟨⟨path⟩, line, 1, 0, 0⟩, path, none⟩
    let r : Report := ⟨[found "a.b" 1, found "a//b" 2, found "a/b" 2, found "a/./b" 1], 3⟩
    let s : Report := ⟨[found "a/b" 2, found "a" 9], 2⟩
    r.sorted.violations = [found "a/./b" 1, found "a//b" 2, found "a/b" 2, found "a.b" 1] ∧
      (r.sorted.append s.sorted).sorted = (r.append s).sorted ∧
      (Path.mk "a").parts.getLast? = some "a" ∧ Path.isVoid "a" = false ∧
      Path.Precedes ⟨"a/b"⟩ ⟨"a.b"⟩ := by
  intro found r s
  obtain ⟨-, -, happend, -, hdot⟩ := eq_violations_sorted_iff r
  refine ⟨by cbv, happend s, by decide, by decide, ?_⟩
  exact hdot "a" "b" "b" (by decide)

end Report

end IdentityLint
