import IdentityLint.Analyzer
import IdentityLint.Proofs.PathOrder

/-!
# Exempt files

The rules do not apply to files whose paths end with the text of the exempt file, written with
slashes or with backslashes.  The end of a text need not begin where a name begins.  So all names of
the exempt file but the first are the last names of the path, while the first one may be the end of
a longer name (`Path.EndsIn.exists_names_eq`).  The exempt file is the end of the path name by name
only where a name begins (`Path.EndsIn.names_suffix_iff`).
-/

namespace IdentityLint

namespace Path

/-! ### Names between dividers -/

/-- Does a character divide names?  Paths are written with slashes or with backslashes. -/
def isDivider (c : Char) : Bool := c == '/' || c == '\\'

/-- The names in a text, divided by slashes or backslashes. -/
def names (text : List Char) : List (List Char) :=
  Text.splitAt '/' (text.map fun c => if isDivider c then '/' else c)

/-- A text with backslashes for slashes. -/
def backslashed (text : List Char) : List Char := text.map fun c => if c == '/' then '\\' else c

/-- A path ends with a text, written with slashes or with backslashes, and `front` is what stands in
front of it. -/
def EndsIn (p : Path) (front suffix : List Char) : Prop :=
  p.text.toList = front ++ suffix ∨ p.text.toList = front ++ backslashed suffix

/-- A name begins behind a text: the text is empty, or its last character is a divider. -/
def AtName (front : List Char) : Prop := ∀ c ∈ front.getLast?, isDivider c = true

variable {p : Path} {front suffix : List Char}

lemma endsWith_iff (p : Path) (suffix : String) :
    p.endsWith suffix = true ↔ suffix ≠ "" ∧ ∃ front, p.EndsIn front suffix.toList := by
  have hends : ∀ written : List Char,
      written.reverse.isPrefixOf p.text.toList.reverse = true ↔
        ∃ front, p.text.toList = front ++ written := by
    intro written
    rw [List.isPrefixOf_iff_prefix, List.reverse_prefix]
    exact exists_congr fun front => eq_comm
  have hempty : (!suffix.toList.isEmpty) = true ↔ suffix ≠ "" := by simp
  rw [endsWith, Bool.and_eq_true, Bool.or_eq_true, hempty, hends, hends, ← exists_or]
  rfl

lemma names_ne_nil (text : List Char) : names text ≠ [] := by
  rw [names, Text.splitAt_eq_splitOn]
  exact List.splitOn_ne_nil _ _

lemma names_backslashed (text : List Char) : names (backslashed text) = names text := by
  rw [names, backslashed, List.map_map, names]
  refine congrArg _ (List.map_congr_left fun c _ => ?_)
  by_cases hc : c = '/' <;> simp [isDivider, hc]

/-- Where two texts meet, the last name of the first joins the first name of the second. -/
lemma names_append {s t : List Char} {outer rest : List (List Char)} {last first : List Char}
    (hs : names s = outer ++ [last]) (ht : names t = first :: rest) :
    names (s ++ t) = outer ++ (last ++ first) :: rest := by
  rw [names, List.map_append]
  exact Text.splitAt_append hs ht

/-- The last name of a text is empty exactly if a name begins behind the text. -/
lemma last_eq_nil_iff {outer : List (List Char)} {last : List Char}
    (h : names front = outer ++ [last]) : last = [] ↔ AtName front := by
  have hlast : (names front).getLast? = some last := by simp [h]
  rcases List.eq_nil_or_concat' front with rfl | ⟨init, c, rfl⟩
  · obtain rfl : [] = last := Option.some.inj hlast
    simp [AtName]
  · obtain ⟨outer', last', hinit⟩ := (List.eq_nil_or_concat' _).resolve_left (names_ne_nil init)
    have hat : AtName (init ++ [c]) ↔ isDivider c = true := by simp [AtName]
    rw [hat]
    cases hc : isDivider c with
    | true =>
      have hsingle : names [c] = [[], []] := by simp [names, hc, Text.splitAt]
      rw [names_append hinit hsingle] at hlast
      simpa using hlast.symm
    | false =>
      have hslash : c ≠ '/' := by
        rintro rfl
        cases hc
      have hsingle : names [c] = [[c]] := by simp [names, hc, Text.splitAt, hslash]
      rw [names_append hinit hsingle] at hlast
      obtain rfl : last' ++ [c] = last := by simpa using hlast
      simp

/-- All names of the suffix but the first are the last names of the path, and the first one is the
end of the name in front of them. -/
lemma EndsIn.exists_names_eq (h : p.EndsIn front suffix) :
    ∃ outer last first rest, names front = outer ++ [last] ∧ names suffix = first :: rest ∧
      names p.text.toList = outer ++ (last ++ first) :: rest := by
  obtain ⟨outer, last, hfront⟩ := (List.eq_nil_or_concat' _).resolve_left (names_ne_nil front)
  obtain ⟨first, rest, hsuffix⟩ := List.exists_cons_of_ne_nil (names_ne_nil suffix)
  refine ⟨outer, last, first, rest, hfront, hsuffix, ?_⟩
  rcases h with htext | htext
  · rw [htext, names_append hfront hsuffix]
  · rw [htext, names_append hfront (names_backslashed suffix ▸ hsuffix)]

/-- The names of the suffix are the last names of the path exactly if a name begins there. -/
lemma EndsIn.names_suffix_iff (h : p.EndsIn front suffix) :
    names suffix <:+ names p.text.toList ↔ AtName front := by
  obtain ⟨outer, last, first, rest, hfront, hsuffix, hnames⟩ := h.exists_names_eq
  rw [← last_eq_nil_iff hfront, hsuffix, hnames]
  constructor
  · intro hends
    have hback : (last ++ first) :: rest <:+ outer ++ (last ++ first) :: rest :=
      List.suffix_append _ _
    have heq := (List.suffix_of_suffix_length_le hends hback (by simp)).eq_of_length (by simp)
    simpa using heq
  · rintro rfl
    exact List.suffix_append _ _

end Path

/-! ### Rules and exempt files -/

/-- A rule goes by the text of the path alone when it decides if it applies to a file. -/
lemma Check.start?_eq_none_iff (r : Rule) (path : Path) (content : String) (root : Path) :
    Check.start? r (.new path content root) = none ↔
      r.conventions.exemptFile ≠ "" ∧
        ∃ front, path.EndsIn front r.conventions.exemptFile.toList := by
  rw [← Path.endsWith_iff, start?, Rule.exempts, ite_eq_left_iff]
  simp [SourceFile.new]

lemma Analyzer.checkSource_of_start?_eq_none (a : Analyzer) (path : Path) (content : String)
    (h : ∀ r ∈ a.rules, Check.start? r (.new path content a.root) = none) :
    a.checkSource path content = [] := by
  have hstart : a.startAll (.new path content a.root) = ([], []) := by
    rw [startAll, List.filterMap_eq_nil_iff.2 fun r hr => ?_]
    · rfl
    · rw [h r (List.mem_of_mem_filter hr)]
      rfl
  rw [checkSource, checkFile, hstart]
  rfl

/-- To which files a rule applies.  It does not apply to a file exactly if the text of the path ends
with that of the exempt file, written with slashes or with backslashes; then rules that go by the
same conventions report nothing, whatever the content is.  The names of the exempt file are the last
names of such a path exactly if a name begins where the text of the exempt file begins; but
otherwise only the first of them differs, as it is the end of a longer name.  To all other files the
rule applies. -/
theorem start?_eq_none_iff_text_ends (r : Rule) (path : Path) :
    let exempt := r.conventions.exemptFile
    (∀ content root, Check.start? r (.new path content root) = none ↔
      exempt ≠ "" ∧ ∃ front, path.EndsIn front exempt.toList) ∧
    (∀ content root, ¬(exempt ≠ "" ∧ ∃ front, path.EndsIn front exempt.toList) →
      Check.start? r (.new path content root) = some (Check.start r)) ∧
    (exempt ≠ "" → ∀ front, path.EndsIn front exempt.toList →
      (∀ a : Analyzer, (∀ s ∈ a.rules, s.conventions = r.conventions) →
        ∀ content, a.checkSource path content = []) ∧
      (Path.names exempt.toList <:+ Path.names path.text.toList ↔ Path.AtName front) ∧
      ∃ outer last first rest, Path.names exempt.toList = first :: rest ∧
        Path.names path.text.toList = outer ++ (last ++ first) :: rest) := by
  intro exempt
  refine ⟨fun content root => Check.start?_eq_none_iff r path content root,
    fun content root hnot => ?_, fun hne front hends => ⟨fun a ha content => ?_,
      hends.names_suffix_iff, ?_⟩⟩
  · rw [← Check.start?_eq_none_iff r path content root] at hnot
    rw [Check.start?] at hnot ⊢
    split at hnot
    · exact absurd rfl hnot
    · next hexempts => rw [if_neg hexempts]
  · refine a.checkSource_of_start?_eq_none path content fun s hs => ?_
    rw [Check.start?_eq_none_iff, ha s hs]
    exact ⟨hne, front, hends⟩
  · obtain ⟨outer, last, first, rest, -, hfirst, hnames⟩ := hends.exists_names_eq
    exact ⟨outer, last, first, rest, hfirst, hnames⟩

/-- The exempt file itself, written with backslashes, and a file beside it. -/
theorem start?_eq_none_iff_text_ends_backslashed :
    let r := Rule.new .rawFactory .standard
    let path : Path := ⟨"C:\\repo\\convex\\auth.ts"⟩
    let front := "C:\\repo\\".toList
    let beside : Path := ⟨"/repo/convex/auth.tsx"⟩
    (path.EndsIn front r.conventions.exemptFile.toList ∧ Path.AtName front) ∧
    (Check.start? r (.new path "" ⟨"/"⟩) = none ∧
      Path.names r.conventions.exemptFile.toList <:+ Path.names path.text.toList ∧
      ∀ content, Analyzer.checkSource ⟨⟨"/"⟩, [r], [], .standard⟩ path content = []) ∧
    (¬∃ front, beside.EndsIn front r.conventions.exemptFile.toList) ∧
    Check.start? r (.new beside "" ⟨"/"⟩) = some (Check.start r) := by
  intro r path front beside
  obtain ⟨hnone, -, hends⟩ := start?_eq_none_iff_text_ends r path
  obtain ⟨-, hsome, -⟩ := start?_eq_none_iff_text_ends r beside
  have hpath : path.EndsIn front r.conventions.exemptFile.toList := .inr (by decide +kernel)
  have hat : Path.AtName front := by
    have hlast : front.getLast? = some '\\' := by decide +kernel
    simp [Path.AtName, hlast, Path.isDivider]
  have hne : r.conventions.exemptFile ≠ "" := by decide +kernel
  obtain ⟨hempty, hnames, -⟩ := hends hne front hpath
  have hbeside : ¬∃ front, beside.EndsIn front r.conventions.exemptFile.toList := fun h => by
    have := (Path.endsWith_iff beside r.conventions.exemptFile).2 ⟨hne, h⟩
    exact absurd this (by decide +kernel)
  exact ⟨⟨hpath, hat⟩, ⟨(hnone "" ⟨"/"⟩).2 ⟨hne, front, hpath⟩, hnames.2 hat,
    hempty ⟨⟨"/"⟩, [r], [], .standard⟩ (by simp)⟩, hbeside, hsome "" ⟨"/"⟩ fun h => hbeside h.2⟩

/-- A file in a directory whose name merely ends like that of the exempt file is exempt as well:
what would be reported in another file is not reported there. -/
theorem longer_name_is_exempt :
    let a : Analyzer := ⟨⟨"/"⟩, Rule.all .standard, [], .standard⟩
    let text := "import\x7bquery\x7dfrom\"_generated/server\";query()"
    let path : Path := ⟨"/myconvex/auth.ts"⟩
    (∀ r ∈ Rule.all .standard, Check.start? r (.new path text a.root) = none) ∧
      a.checkSource path text = [] ∧
      ¬Path.names Conventions.standard.exemptFile.toList <:+ Path.names path.text.toList ∧
      (a.checkSource ⟨"/myconvex/notes.ts"⟩ text).length = 1 := by
  decide +kernel

end IdentityLint
