import IdentityLint.Path
import Mathlib.Data.List.DropRight
import Mathlib.Data.List.Infix
import Mathlib.Tactic.Lemma

/-!
# The order of paths

Paths are ordered by their components; paths with the same components count as equal
(`compare_eq_eq_iff`).

A path relative to a root is written anew, from those of its parts that are left behind the root.
Its components are the components behind those of the root (`components_relativeTo`).  Hence paths
below a root are in the same order as their relative paths (`compare_relativeTo`).
-/

namespace IdentityLint

/-! ### Pieces of a text -/

namespace Text

lemma splitAt_eq_splitOn (c : Char) (s : List Char) : splitAt c s = s.splitOn c := by
  induction s with
  | nil => rfl
  | cons d s ih =>
    rw [splitAt, List.splitOn, List.splitOnP_cons_eq_if_modifyHead, ih, List.splitOn]
    cases h : List.splitOnP (· == c) s with
    | nil => exact absurd h (List.splitOnP_ne_nil _ _)
    | cons p ps => rfl

lemma not_mem_of_mem_splitAt {c : Char} {s piece : List Char} (h : piece ∈ splitAt c s) :
    c ∉ piece := by
  induction s generalizing piece with
  | nil => simp_all [splitAt]
  | cons d s ih =>
    rw [splitAt] at h
    split at h
    · rcases List.mem_cons.1 h with rfl | h
      · simp
      · exact ih h
    · next hd =>
      have hne : c ≠ d := fun hc => hd (by simp [hc])
      cases hs : splitAt c s with
      | nil => simp_all
      | cons p ps =>
        rw [hs] at h ih
        rcases List.mem_cons.1 h with rfl | h
        · have hp : c ∉ p := ih List.mem_cons_self
          simpa [hne] using hp
        · exact ih (List.mem_cons_of_mem _ h)

/-- Where two texts meet, the last piece of the first joins the first piece of the second. -/
lemma splitAt_append {c : Char} {s t : List Char} {init : List (List Char)} {last first : List Char}
    {rest : List (List Char)} (hs : splitAt c s = init ++ [last]) (ht : splitAt c t = first :: rest) :
    splitAt c (s ++ t) = init ++ (last ++ first) :: rest := by
  have hne : ∀ s, splitAt c s ≠ [] := fun s => splitAt_eq_splitOn c s ▸ List.splitOn_ne_nil c s
  induction s generalizing init last with
  | nil =>
    obtain ⟨rfl, rfl⟩ : init = [] ∧ last = [] := by
      cases init <;> simp_all [splitAt]
    exact ht
  | cons d s ih =>
    obtain ⟨p, ps, hps⟩ := List.exists_cons_of_ne_nil (hne s)
    rw [splitAt, hps] at hs
    rw [List.cons_append, splitAt]
    by_cases hd : (d == c) = true
    · rw [if_pos hd] at hs ⊢
      cases init with
      | nil => simp at hs
      | cons q init =>
        obtain ⟨rfl, hinit⟩ := List.cons.inj hs
        rw [ih (hps.trans hinit)]
        rfl
    · rw [if_neg hd] at hs ⊢
      cases init with
      | nil =>
        obtain ⟨rfl, rfl⟩ := List.cons.inj hs
        rw [ih (show splitAt c s = [] ++ [p] from hps)]
        rfl
      | cons q init =>
        obtain ⟨rfl, rfl⟩ := List.cons.inj hs
        rw [ih (show splitAt c s = p :: init ++ [last] from hps)]
        rfl

end Text

namespace Path

/-! ### Comparison -/

namespace Component

/-- The text of a name; the other components have none. -/
def text : Component → String
  | name s => s
  | _ => ""

lemma compare_eq_compareLex : compare = compareLex (compareOn rank) (compareOn text) := by
  funext a b
  -- names differ in rank from everything else, so the text decides among names only
  cases a <;> cases b <;> simp [compare, compareLex, compareOn, rank, text] <;> rfl

instance : Std.TransCmp compare := by
  rw [compare_eq_compareLex]
  infer_instance

instance : Std.LawfulEqCmp compare where
  eq_of_compare {a b} h := by
    cases a <;> cases b <;> simp_all [compare, rank]

end Component

lemma compare_eq_compareLex (p q : Path) :
    p.compare q = List.compareLex Component.compare p.components q.components := by
  rw [compare]
  fun_induction compare.go p.components q.components with
  | case1 => rfl
  | case2 => rfl
  | case3 => rfl
  | case4 a as b bs h ih => rw [List.compareLex_cons_cons, h, ih]; rfl
  | case5 a as b bs h =>
    rw [List.compareLex_cons_cons]
    cases hc : a.compare b <;> simp_all

instance : Std.TransCmp compare where
  eq_swap {p q} := by
    rw [compare_eq_compareLex, compare_eq_compareLex]
    exact Std.OrientedCmp.eq_swap
  isLE_trans {p q r} := by
    rw [compare_eq_compareLex, compare_eq_compareLex, compare_eq_compareLex]
    exact Std.TransCmp.isLE_trans

lemma compare_eq_eq_iff {p q : Path} : p.compare q = .eq ↔ p.components = q.components := by
  rw [compare_eq_compareLex]
  exact Std.LawfulEqCmp.compare_eq_iff_eq

lemma compareLex_append_left (front cs ds : List Component) :
    List.compareLex Component.compare (front ++ cs) (front ++ ds) =
      List.compareLex Component.compare cs ds := by
  induction front with
  | nil => rfl
  | cons c front ih =>
    have hself : c.compare c = .eq := Std.ReflCmp.compare_self
    rw [List.cons_append, List.cons_append, List.compareLex_cons_cons, hself, ih]
    rfl

/-! ### Paths and their parts -/

/-- The components that some parts stand for. -/
def named (parts : List String) : List Component := (parts.filter (!isVoid ·)).map component

lemma components_eq (p : Path) :
    p.components =
      (anchored p.isAbsolute p.parts).1 ++ named (anchored p.isAbsolute p.parts).2 := rfl

lemma named_dropWhile (parts : List String) : named (parts.dropWhile isVoid) = named parts := by
  induction parts with
  | nil => rfl
  | cons part parts ih =>
    cases h : isVoid part with
    | true => simpa [List.dropWhile_cons, h, named] using ih
    | false => simp [h]

lemma named_reverse (parts : List String) : named parts.reverse = (named parts).reverse := by
  rw [named, List.filter_reverse, List.map_reverse, named]

lemma named_trimEnd (parts : List String) :
    named (parts.reverse.dropWhile isVoid).reverse = named parts := by
  rw [named_reverse, named_dropWhile, named_reverse, List.reverse_reverse]

lemma slash_not_mem_of_mem_parts {p : Path} {part : String} (h : part ∈ p.parts) :
    '/' ∉ part.toList := by
  obtain ⟨piece, hpiece, rfl⟩ := List.mem_map.1 h
  rw [String.toList_ofList]
  exact Text.not_mem_of_mem_splitAt hpiece

/-- A path that is written from parts has these parts. -/
lemma parts_intercalate {parts : List String} (hparts : ∀ part ∈ parts, '/' ∉ part.toList)
    (hne : parts ≠ []) : (Path.mk (String.intercalate "/" parts)).parts = parts := by
  have hsplit : (['/'].intercalate (parts.map String.toList)).splitOn '/' =
      parts.map String.toList :=
    List.splitOn_intercalate '/' (by simpa using hparts) (by simpa using hne)
  have hslash : "/".toList = ['/'] := rfl
  rw [Path.parts, String.toList_intercalate, Text.splitAt_eq_splitOn, hslash, hsplit, List.map_map]
  have hid : String.ofList ∘ String.toList = id := by
    funext part
    exact String.ofList_toList
  rw [hid, List.map_id]

lemma parts_ne_nil (p : Path) : p.parts ≠ [] := by
  rw [parts, Text.splitAt_eq_splitOn]
  simp

/-- A path is absolute if an empty part is followed by another one. -/
lemma isAbsolute_iff {p : Path} {first : String} {rest : List String}
    (hparts : p.parts = first :: rest) : p.isAbsolute = true ↔ first = "" ∧ rest ≠ [] := by
  rw [parts] at hparts
  rw [isAbsolute]
  cases htext : p.text.toList with
  | nil =>
    obtain ⟨-, rfl⟩ : "" = first ∧ [] = rest := by simpa [htext, Text.splitAt] using hparts
    simp
  | cons c cs =>
    cases hs : Text.splitAt '/' cs with
    | nil =>
      rw [Text.splitAt_eq_splitOn] at hs
      exact absurd hs (List.splitOn_ne_nil _ _)
    | cons piece pieces =>
      by_cases hc : c = '/'
      · obtain ⟨rfl, rfl⟩ : "" = first ∧ (piece :: pieces).map String.ofList = rest := by
          simpa [htext, Text.splitAt, hs, hc] using hparts
        simp [hc]
      · obtain ⟨rfl, -⟩ : String.ofList (c :: piece) = first ∧ _ = rest := by
          simpa [htext, Text.splitAt, hs, hc] using hparts
        simp [hc]

lemma anchored_of_parts {p : Path} {first : String} {rest : List String}
    (hparts : p.parts = first :: rest) :
    anchored p.isAbsolute p.parts =
      if first = "" ∧ rest ≠ [] then ([.root], rest)
      else if first = "." then ([.here], rest)
      else ([], first :: rest) := by
  have habsolute := isAbsolute_iff hparts
  rw [anchored, hparts]
  by_cases h : first = "" ∧ rest ≠ []
  · rw [if_pos h, if_pos (habsolute.2 h)]
    rfl
  · rw [if_neg h, if_neg (mt habsolute.1 h)]
    by_cases hdot : first = "." <;> simp [hdot]

lemma components_of_parts {p : Path} {first : String} {rest : List String}
    (hparts : p.parts = first :: rest) :
    p.components =
      if first = "" ∧ rest ≠ [] then .root :: named rest
      else if first = "." then .here :: named rest
      else named (first :: rest) := by
  rw [components_eq, anchored_of_parts hparts]
  split_ifs <;> rfl

lemma trimEnd_isBeginning (parts : List String) :
    (parts.reverse.dropWhile isVoid).reverse <+: parts :=
  List.rdropWhile_prefix isVoid parts

lemma components_intercalate {parts : List String} (h : ∀ part ∈ parts, '/' ∉ part.toList)
    (hplain : ∀ first rest, parts = first :: rest → ¬(first = "" ∧ rest ≠ []) ∧ first ≠ ".") :
    (Path.mk (String.intercalate "/" parts)).components = named parts := by
  cases parts with
  | nil => rfl
  | cons first rest =>
    obtain ⟨hempty, hdot⟩ := hplain first rest rfl
    rw [components_of_parts (parts_intercalate h (by simp)), if_neg hempty, if_neg hdot]

lemma components_slash_intercalate {parts : List String}
    (h : ∀ part ∈ parts, '/' ∉ part.toList) :
    (Path.mk ("/" ++ String.intercalate "/" parts)).components = .root :: named parts := by
  cases parts with
  | nil => rfl
  | cons part parts =>
    have htext : "/" ++ String.intercalate "/" (part :: parts) =
        String.intercalate "/" ("" :: part :: parts) := by simp
    rw [htext, components_of_parts (parts_intercalate (by simpa using h) (by simp))]
    simp

lemma components_dot_intercalate {parts : List String}
    (h : ∀ part ∈ parts, '/' ∉ part.toList) :
    (Path.mk ("." ++ (if parts.isEmpty = true then "" else "/") ++
      String.intercalate "/" parts)).components = .here :: named parts := by
  cases parts with
  | nil => rfl
  | cons part parts =>
    have htext : "." ++ "/" ++ String.intercalate "/" (part :: parts) =
        String.intercalate "/" ("." :: part :: parts) := by simp
    rw [List.isEmpty_cons, if_neg (by simp), htext,
      components_of_parts (parts_intercalate (by simpa using h) (by simp))]
    simp

lemma components_ofInnerParts {parts : List String} (h : ∀ part ∈ parts, '/' ∉ part.toList) :
    (ofInnerParts parts).components = named parts := by
  have hbegin := trimEnd_isBeginning (parts.dropWhile isVoid)
  rw [ofInnerParts, ← named_dropWhile, ← named_trimEnd]
  refine components_intercalate (fun part hpart => ?_) fun first rest hinner => ?_
  · exact h part ((List.dropWhile_sublist isVoid).mem (hbegin.subset hpart))
  · -- the first part is not void
    obtain ⟨back, hback⟩ := hbegin
    have hhead := List.head?_dropWhile_not isVoid parts
    rw [← hback, hinner] at hhead
    obtain ⟨hempty, hdot⟩ : first ≠ "" ∧ first ≠ "." := by simpa [isVoid] using hhead
    exact ⟨by simp [hempty], hdot⟩

lemma stripParts?_eq {cs ds : List Component} {parts : List String} (h : named parts = cs ++ ds) :
    ∃ rest, stripParts? cs parts = some rest ∧ named rest = ds ∧ ∀ part ∈ rest, part ∈ parts := by
  induction parts generalizing cs with
  | nil =>
    obtain ⟨rfl, rfl⟩ : cs = [] ∧ ds = [] := by simpa [named] using h
    exact ⟨[], rfl, rfl, fun _ h => h⟩
  | cons part parts ih =>
    cases cs with
    | nil => exact ⟨part :: parts, rfl, h, fun _ h => h⟩
    | cons c cs =>
      rw [stripParts?]
      cases hvoid : isVoid part with
      | true =>
        -- void parts are skipped on the way, as they are not components
        have hskip : named parts = c :: cs ++ ds := by simpa [named, hvoid] using h
        obtain ⟨rest, hrest, hnamed, hmem⟩ := ih hskip
        exact ⟨rest, hrest, hnamed, fun x hx => List.mem_cons_of_mem _ (hmem x hx)⟩
      | false =>
        obtain ⟨hc, hcs⟩ : component part = c ∧ named parts = cs ++ ds := by
          simpa [named, hvoid] using h
        obtain ⟨rest, hrest, hnamed, hmem⟩ := ih hcs
        exact ⟨rest, by simpa [hc] using hrest, hnamed,
          fun x hx => List.mem_cons_of_mem _ (hmem x hx)⟩

/-! ### Relative paths -/

/-- A path relative to the empty one is written anew, with the same components. -/
lemma relativeTo?_of_components_eq_nil (p : Path) {root : Path} (h : root.components = []) :
    ∃ q, p.relativeTo? root = some q ∧ q.components = p.components := by
  obtain ⟨hanchor, hwanted⟩ := List.append_eq_nil_iff.1 h
  rw [relativeTo?]
  simp only [hanchor, hwanted, List.isEmpty_nil, Bool.and_self, if_true]
  refine ⟨_, rfl, ?_⟩
  obtain ⟨first, rest, hparts⟩ := List.exists_cons_of_ne_nil p.parts_ne_nil
  have hfree : ∀ part ∈ first :: rest, '/' ∉ part.toList := by
    rw [← hparts]
    exact fun part => slash_not_mem_of_mem_parts
  have habsolute := isAbsolute_iff hparts
  rw [components_of_parts hparts, anchored_of_parts hparts]
  -- an anchor is written in front of the parts left; without one the first part must not look like
  -- an anchor, which is so because it is the first part of `p`
  by_cases h : first = "" ∧ rest ≠ []
  · have hkept := (trimEnd_isBeginning rest).subset
    rw [if_pos h, ← named_trimEnd rest, ← components_slash_intercalate
      fun part hpart => hfree part (List.mem_cons_of_mem _ (hkept hpart))]
    simp [h, habsolute.2 h]
  · have hrelative : p.isAbsolute = false := Bool.eq_false_iff.2 (mt habsolute.1 h)
    rw [if_neg h]
    by_cases hdot : first = "."
    · have hkept := (trimEnd_isBeginning rest).subset
      rw [if_pos hdot, ← named_trimEnd rest, ← components_dot_intercalate
        fun part hpart => hfree part (List.mem_cons_of_mem _ (hkept hpart))]
      simp [hdot, hrelative]
    · have hkept := trimEnd_isBeginning (first :: rest)
      rw [if_neg hdot, ← named_trimEnd (first :: rest)]
      rw [← components_intercalate (fun part hpart => hfree part (hkept.subset hpart)) ?_]
      · simp [h, hdot, hrelative]
      · intro first' rest' hcons
        obtain ⟨rfl, hrest⟩ := List.cons_prefix_cons.1 (hcons ▸ hkept)
        exact ⟨fun hempty => h ⟨hempty.1, hrest.ne_nil hempty.2⟩, hdot⟩

lemma relativeTo?_of_components_ne_nil {p root : Path} (hroot : root.components ≠ [])
    (hanchor : (anchored p.isAbsolute p.parts).1 = (anchored root.isAbsolute root.parts).1) :
    p.relativeTo? root =
      (stripParts? (named (anchored root.isAbsolute root.parts).2)
        (anchored p.isAbsolute p.parts).2).map ofInnerParts := by
  have hempty : ¬((anchored root.isAbsolute root.parts).1.isEmpty &&
      (named (anchored root.isAbsolute root.parts).2).isEmpty) = true := by
    rw [Bool.and_eq_true, List.isEmpty_iff, List.isEmpty_iff]
    exact fun h => hroot (List.append_eq_nil_iff.2 h)
  exact (if_neg hempty).trans (if_pos hanchor)

/-- Names and references to the parent do not begin a path in a special way. -/
lemma component_ne (part : String) : component part ≠ .root ∧ component part ≠ .here := by
  rw [component]
  split <;> simp

/-- The way a path begins can be told by its first component. -/
lemma anchored_fst (p : Path) :
    (anchored p.isAbsolute p.parts).1 =
      (p.components.take 1).filter fun c => c = .root ∨ c = .here := by
  obtain ⟨first, rest, hparts⟩ := List.exists_cons_of_ne_nil p.parts_ne_nil
  rw [components_of_parts hparts, anchored_of_parts hparts]
  split_ifs
  · rfl
  · rfl
  · symm
    rw [List.filter_eq_nil_iff]
    intro c hc
    obtain ⟨part, -, rfl⟩ := List.mem_map.1 (List.mem_of_mem_take hc)
    simpa using component_ne part

/-- A path that begins with the components of another begins like that in the same way. -/
lemma anchored_fst_eq {p root : Path} (h : root.components <+: p.components)
    (hroot : root.components ≠ []) :
    (anchored p.isAbsolute p.parts).1 = (anchored root.isAbsolute root.parts).1 := by
  obtain ⟨c, cs, hcs⟩ := List.exists_cons_of_ne_nil hroot
  obtain ⟨ds, hds⟩ := h
  rw [anchored_fst, anchored_fst, ← hds, hcs]
  rfl

lemma mem_parts_of_mem_anchored {p : Path} {part : String}
    (h : part ∈ (anchored p.isAbsolute p.parts).2) : part ∈ p.parts := by
  obtain ⟨first, rest, hparts⟩ := List.exists_cons_of_ne_nil p.parts_ne_nil
  rw [anchored_of_parts hparts] at h
  rw [hparts]
  split at h
  · exact List.mem_cons_of_mem _ h
  · split at h
    · exact List.mem_cons_of_mem _ h
    · exact h

/-- A relative path is written from the parts that are left behind the root. -/
lemma exists_relativeTo_eq {p root : Path} (h : root.components <+: p.components)
    (hroot : root.components ≠ []) :
    ∃ rest, p.relativeTo root = ofInnerParts rest ∧
      named rest = p.components.drop root.components.length ∧
      ∀ part ∈ rest, '/' ∉ part.toList := by
  -- both begin in the same way, so it is the parts behind the anchor that are stripped
  have hanchor := anchored_fst_eq h hroot
  obtain ⟨ds, hds⟩ := h
  rw [components_eq p, components_eq root, hanchor, List.append_assoc,
    List.append_cancel_left_eq] at hds
  obtain ⟨rest, hrest, hnamed, hmem⟩ := stripParts?_eq hds.symm
  refine ⟨rest, ?_, ?_, fun part hpart =>
    slash_not_mem_of_mem_parts (mem_parts_of_mem_anchored (hmem part hpart))⟩
  · rw [relativeTo, relativeTo?_of_components_ne_nil hroot hanchor, hrest, Option.map_some,
      Option.getD_some]
  · rw [hnamed, components_eq p, components_eq root, hanchor, ← hds, ← List.append_assoc,
      List.drop_left]

/-- The components of a relative path are those behind the root. -/
lemma components_relativeTo {p root : Path} (h : root.components <+: p.components) :
    (p.relativeTo root).components = p.components.drop root.components.length := by
  by_cases hroot : root.components = []
  · obtain ⟨q, hq, hcomponents⟩ := p.relativeTo?_of_components_eq_nil hroot
    rw [relativeTo, hq, Option.getD_some, hcomponents, hroot]
    rfl
  · obtain ⟨rest, hrest, hnamed, hfree⟩ := exists_relativeTo_eq h hroot
    rw [hrest, components_ofInnerParts hfree, hnamed]

/-- Paths below a root are in the order of their relative paths. -/
lemma compare_relativeTo {p q root : Path} (hp : root.components <+: p.components)
    (hq : root.components <+: q.components) :
    (p.relativeTo root).compare (q.relativeTo root) = p.compare q := by
  obtain ⟨cs, hcs⟩ := hp
  obtain ⟨ds, hds⟩ := hq
  rw [compare_eq_compareLex, compare_eq_compareLex, components_relativeTo ⟨cs, hcs⟩,
    components_relativeTo ⟨ds, hds⟩, ← hcs, ← hds, List.drop_left, List.drop_left,
    compareLex_append_left]

end Path

end IdentityLint
