import IdentityLint.Proofs.PathOrder
import IdentityLint.Proofs.VisitationOrder

/-!
# All files of a run

A run analyzes the files that it keeps one by one, in the order of their paths, and sorts all
violations once more at the end.  That last sorting has nothing to do
(`Analyzer.sorted_concatenation`): the files are in the order of their paths below the root, which
is that of the reported paths, and in a file the violations are in the order of their offsets, which
is that of their lines and columns.

Of the rules this needs one thing: that they report at nodes of the file that they are shown, so
that path, line, column and offset of a violation belong together.  Rules of either kind do
(`Analyzer.exists_location_of_mem_checkSource`).

So a report is the outcome of the files taken one by one, whatever the order in which they were
discovered.
-/

namespace IdentityLint

open Syntax

/-! ### Offsets, lines and columns -/

namespace Text.Position

/-- One position is at or in front of another. -/
def AtMost (p q : Position) : Prop := p.line < q.line ∨ p.line = q.line ∧ p.column ≤ q.column

lemma AtMost.trans {p q r : Position} (hpq : p.AtMost q) (hqr : q.AtMost r) : p.AtMost r := by
  rw [AtMost] at *
  omega

lemma atMost_next (p : Position) (c : Char) : p.AtMost (p.next c) := by
  rw [next, AtMost]
  split
  · exact Or.inl (Nat.lt_succ_self _)
  · exact Or.inr ⟨rfl, Nat.le_add_right _ _⟩

lemma atMost_advance (p : Position) (text : List Char) (n : Nat) : p.AtMost (p.advance text n) := by
  induction text generalizing p n with
  | nil => exact Or.inr ⟨rfl, Nat.le_refl _⟩
  | cons c text ih =>
    rw [advance]
    split
    · exact Or.inr ⟨rfl, Nat.le_refl _⟩
    · exact (p.atMost_next c).trans (ih _ _)

/-- Behind more bytes there is no earlier position. -/
lemma advance_mono (p : Position) (text : List Char) {m n : Nat} (h : m ≤ n) :
    (p.advance text m).AtMost (p.advance text n) := by
  induction text generalizing p m n with
  | nil => exact Or.inr ⟨rfl, Nat.le_refl _⟩
  | cons c text ih =>
    by_cases hm : m = 0
    · rw [advance, if_pos hm]
      exact atMost_advance p (c :: text) n
    · rw [advance, advance, if_neg hm, if_neg (by omega)]
      exact ih _ (Nat.sub_le_sub_right h _)

end Text.Position

namespace SourceFile

/-- In a file, the order of offsets is that of lines and columns. -/
lemma isLE_compare_location (file : SourceFile) {m n : Node} (h : m.span.start ≤ n.span.start) :
    ((file.location m).compare (file.location n)).isLE = true := by
  have hpositions := Text.Position.advance_mono ⟨1, 1⟩ file.content.toList h
  have hfile : file.relativePath.compare file.relativePath = .eq := Std.ReflCmp.compare_self
  rw [Location.compare]
  simp only [location, hfile, Ordering.then, Text.Position.of]
  rcases hpositions with hline | ⟨hline, hcolumn⟩
  · rw [Nat.compare_eq_lt.2 hline]
    rfl
  · rw [Nat.compare_eq_eq.2 hline]
    exact Nat.isLE_compare.2 hcolumn

end SourceFile

namespace Analyzer

variable (a : Analyzer)

/-! ### Files -/

/-- Is a file that was discovered to be analyzed? -/
def keeps (f : Path × ByteArray) : Bool := isSource f.1 && !a.excludes f.1

/-- The files that are kept, in the order of their paths. -/
def ordered (files : List (Path × ByteArray)) : List (Path × ByteArray) :=
  (files.filter a.keeps).mergeSort fun f g => (f.1.compare g.1).isLE

/-- The report of the files that were discovered. -/
def reportOn (files : List (Path × ByteArray)) : Except Error Report := do
  let r ← a.reportOf (a.ordered files)
  return r.sorted

lemma analyze_eq (fs : FileTree) :
    a.analyze fs =
      match Discovery.files? a.config.discovery.respectGitignore fs a.root with
      | none => .error .missingRoot
      | some files => a.reportOn files := by
  rw [analyze, sources?]
  cases Discovery.files? a.config.discovery.respectGitignore fs a.root <;> rfl

/-- A file holds a text. -/
def Holds (f : Path × ByteArray) (t : Path × String) : Prop :=
  t.1 = f.1 ∧ String.fromUTF8? f.2 = some t.2

/-- What is found in texts, one after the other. -/
def concatenation (texts : List (Path × String)) : List Violation :=
  texts.flatMap fun t => a.checkSource t.1 t.2

lemma reportOf_eq_ok {files : List (Path × ByteArray)} {texts : List (Path × String)}
    (h : List.Forall₂ Holds files texts) :
    a.reportOf files = .ok ⟨a.concatenation texts, files.length⟩ := by
  induction h with
  | nil => rfl
  | @cons f t files texts hft htexts ih =>
    obtain ⟨path, content⟩ := f
    obtain ⟨rfl, htext⟩ := hft
    rw [reportOf]
    simp only [htext, ih]
    rfl

lemma reportOf_eq_error {files : List (Path × ByteArray)} {f : Path × ByteArray} (hf : f ∈ files)
    (hinvalid : String.fromUTF8? f.2 = none) : a.reportOf files = .error .invalidText := by
  induction files with
  | nil => cases hf
  | cons g files ih =>
    obtain ⟨path, content⟩ := g
    rw [reportOf]
    cases htext : String.fromUTF8? content with
    | none => rfl
    | some text =>
      have hrest : f ∈ files := by
        refine (List.mem_cons.1 hf).resolve_left ?_
        rintro rfl
        exact absurd (hinvalid.symm.trans htext) (by simp)
      simp only [ih hrest]
      rfl

/-- A report holds what is found in the files, and nothing else. -/
lemma mem_reportOf_iff {files : List (Path × ByteArray)} {report : Report} {v : Violation}
    (h : a.reportOf files = .ok report) :
    v ∈ report.violations ↔
      ∃ f ∈ files, ∃ text, String.fromUTF8? f.2 = some text ∧ v ∈ a.checkSource f.1 text := by
  induction files generalizing report with
  | nil =>
    obtain rfl := Except.ok.inj h
    simp [Report.empty]
  | cons f files ih =>
    obtain ⟨path, content⟩ := f
    rw [reportOf] at h
    cases htext : String.fromUTF8? content with
    | none => simp [htext] at h
    | some text =>
      cases hrest : a.reportOf files with
      | error e => simp [htext, hrest, bind, Except.bind] at h
      | ok r =>
        simp only [htext, hrest] at h
        obtain rfl := Except.ok.inj h
        simp [ih hrest, htext]

/-- A violation comes from a file: the file is discovered and kept, and the violation is found in
its text. -/
def ComesFrom (fs : FileTree) (v : Violation) (f : Path × ByteArray) : Prop :=
  ∃ files, Discovery.files? a.config.discovery.respectGitignore fs a.root = some files ∧
    f ∈ files ∧ a.keeps f = true ∧
    ∃ text, String.fromUTF8? f.2 = some text ∧ v ∈ a.checkSource f.1 text

/-- What is reported comes from some file, and what comes from a file is reported. -/
lemma mem_analyze_iff {fs : FileTree} {report : Report} {v : Violation}
    (h : a.analyze fs = .ok report) : v ∈ report.violations ↔ ∃ f, a.ComesFrom fs v f := by
  rw [a.analyze_eq] at h
  cases hfiles : Discovery.files? a.config.discovery.respectGitignore fs a.root with
  | none => simp [hfiles] at h
  | some files =>
    cases hreport : a.reportOf (a.ordered files) with
    | error e => simp [hfiles, reportOn, hreport, bind, Except.bind] at h
    | ok r =>
      simp only [hfiles, reportOn, hreport] at h
      obtain rfl := Except.ok.inj h
      have hmem : v ∈ r.sorted.violations ↔ v ∈ r.violations := List.mem_mergeSort
      rw [hmem, a.mem_reportOf_iff hreport]
      simp only [ordered, List.mem_mergeSort, List.mem_filter, ComesFrom, hfiles,
        Option.some.injEq, exists_eq_left', and_assoc]

/-! ### The order of the violations -/

/-- Every violation in a file stands where a rule reports a call. -/
lemma exists_reported_of_mem_checkSource {path : Path} {text : String} {v : Violation}
    (hv : v ∈ a.checkSource path text) :
    let file := SourceFile.new path text a.root
    ∃ r : Rule, ∃ p ∈ file.tree.places, ∃ w, r.Reported file p.node w ∧
      v.location = w.location := by
  rw [checkSource, checkFile_eq, List.mem_mergeSort, List.mem_flatMap] at hv
  obtain ⟨r, -, hv⟩ := hv
  obtain ⟨w, hw, houtcome⟩ := List.mem_filterMap.1 hv
  rw [Rule.findings, Rule.found_behind _ _ (SourceFile.distinctFunctions_tree _)] at hw
  obtain ⟨p, hp, hfinding⟩ := List.mem_filterMap.1 hw
  exact ⟨r, p, hp, w, Rule.reported_of_finding? hfinding, location_of_outcome a houtcome⟩

/-- Every violation in a file sits at a node, with the location that the file gives to it. -/
lemma exists_location_of_mem_checkSource {path : Path} {text : String} {v : Violation}
    (hv : v ∈ a.checkSource path text) :
    ∃ n, v.location = (SourceFile.new path text a.root).location n := by
  obtain ⟨r, p, -, w, hreported, hlocation⟩ := a.exists_reported_of_mem_checkSource hv
  obtain ⟨target, -, htarget⟩ := hreported.location
  exact ⟨target, hlocation.trans htarget⟩

lemma pairwise_checkSource (path : Path) (text : String) :
    (a.checkSource path text).Pairwise fun v w => precedes v w = true := by
  rw [checkSource, checkFile_eq]
  exact List.pairwise_mergeSort precedes_trans precedes_total _

/-- In a file, violations are in the order of their lines and columns. -/
lemma pairwise_isLE_checkSource (path : Path) (text : String) :
    (a.checkSource path text).Pairwise fun v w =>
      (v.location.compare w.location).isLE = true := by
  refine (a.pairwise_checkSource path text).imp_of_mem fun {v w} hv hw hvw => ?_
  obtain ⟨m, hm⟩ := a.exists_location_of_mem_checkSource hv
  obtain ⟨n, hn⟩ := a.exists_location_of_mem_checkSource hw
  rw [precedes_iff, hm, hn] at hvw
  rw [hm, hn]
  refine SourceFile.isLE_compare_location _ ?_
  rcases hvw with hlt | ⟨heq, -⟩
  · exact Nat.le_of_lt hlt
  · exact Nat.le_of_eq heq

/-- If the files are below the root and in the order of their paths, then what is found in them is
in the order of its places. -/
lemma pairwise_concatenation {texts : List (Path × String)}
    (hbelow : ∀ t ∈ texts, a.root.components <+: t.1.components)
    (hordered : texts.Pairwise fun t u => t.1.compare u.1 = .lt) :
    (a.concatenation texts).Pairwise fun v w => (v.location.compare w.location).isLE = true := by
  refine List.pairwise_flatMap.2 ⟨fun t _ => a.pairwise_isLE_checkSource t.1 t.2, ?_⟩
  refine hordered.imp_of_mem fun {t u} ht hu htu v hv w hw => ?_
  obtain ⟨m, hm⟩ := a.exists_location_of_mem_checkSource hv
  obtain ⟨n, hn⟩ := a.exists_location_of_mem_checkSource hw
  -- between two files the paths decide before lines and columns come in
  have hfile : v.location.file.compare w.location.file = .lt := by
    rw [hm, hn]
    exact (Path.compare_relativeTo (hbelow t ht) (hbelow u hu)).trans htu
  rw [Location.compare, hfile]
  rfl

/-! ### The order of the files -/

section Files

variable {files : List (Path × ByteArray)}

lemma ordered_perm (files : List (Path × ByteArray)) :
    (a.ordered files).Perm (files.filter a.keeps) :=
  List.mergeSort_perm _ _

lemma isLE_trans (f g h : Path × ByteArray) (hfg : (f.1.compare g.1).isLE = true)
    (hgh : (g.1.compare h.1).isLE = true) : (f.1.compare h.1).isLE = true :=
  Std.TransCmp.isLE_trans hfg hgh

lemma isLE_total (f g : Path × ByteArray) :
    ((f.1.compare g.1).isLE || (g.1.compare f.1).isLE) = true := by
  have hswap : f.1.compare g.1 = (g.1.compare f.1).swap := Std.OrientedCmp.eq_swap
  rw [hswap]
  cases g.1.compare f.1 <;> rfl

lemma pairwise_ordered (hdistinct : files.Pairwise fun f g => f.1.components ≠ g.1.components) :
    (a.ordered files).Pairwise fun f g => f.1.compare g.1 = .lt := by
  have hne : (a.ordered files).Pairwise fun f g => f.1.components ≠ g.1.components :=
    ((hdistinct.sublist List.filter_sublist).perm (a.ordered_perm files).symm) fun h => h.symm
  -- the order of paths is strict, as paths that compare equal have the same components
  have hle := List.pairwise_mergeSort isLE_trans isLE_total (files.filter a.keeps)
  refine (hle.and hne).imp fun {f g} h => ?_
  obtain ⟨hle, hne⟩ := h
  rw [ne_eq, ← Path.compare_eq_eq_iff] at hne
  cases hcompare : f.1.compare g.1 <;> simp_all

/-- Files have one order only, if no two paths are alike. -/
lemma eq_of_perm_of_lt {files' : List (Path × ByteArray)} (hperm : files'.Perm files)
    (hordered' : files'.Pairwise fun f g => f.1.compare g.1 = .lt)
    (hordered : files.Pairwise fun f g => f.1.compare g.1 = .lt) : files' = files := by
  refine List.Perm.eq_of_pairwise ?_ hordered' hordered hperm
  intro f g _ _ hfg hgf
  have hswap : f.1.compare g.1 = (g.1.compare f.1).swap := Std.OrientedCmp.eq_swap
  rw [hfg, hgf] at hswap
  cases hswap

lemma ordered_eq_of_perm {files' : List (Path × ByteArray)} (hperm : files'.Perm files)
    (hdistinct : files.Pairwise fun f g => f.1.components ≠ g.1.components) :
    a.ordered files' = a.ordered files := by
  have hdistinct' : files'.Pairwise fun f g => f.1.components ≠ g.1.components :=
    hdistinct.perm hperm.symm fun h => h.symm
  refine eq_of_perm_of_lt ?_ (a.pairwise_ordered hdistinct') (a.pairwise_ordered hdistinct)
  exact ((a.ordered_perm files').trans (hperm.filter _)).trans (a.ordered_perm files).symm

lemma exists_texts (h : ∀ f ∈ files, ∃ text, String.fromUTF8? f.2 = some text) :
    ∃ texts : List (Path × String), List.Forall₂ Holds files texts := by
  induction files with
  | nil => exact ⟨[], .nil⟩
  | cons f files ih =>
    obtain ⟨text, htext⟩ := h f List.mem_cons_self
    obtain ⟨texts, htexts⟩ := ih fun g hg => h g (List.mem_cons_of_mem _ hg)
    exact ⟨(f.1, text) :: texts, .cons ⟨rfl, htext⟩ htexts⟩

/-- A file holds one text at most. -/
lemma rightUnique_holds : Relator.RightUnique Holds := by
  rintro f ⟨path, text⟩ ⟨path', text'⟩ ⟨hpath, htext⟩ ⟨hpath', htext'⟩
  obtain rfl : path = path' := hpath.trans hpath'.symm
  obtain rfl : text = text' := Option.some.inj (htext.symm.trans htext')
  rfl

lemma map_fst_eq_of_holds {texts : List (Path × String)} (h : List.Forall₂ Holds files texts) :
    texts.map Prod.fst = files.map Prod.fst := by
  induction h with
  | nil => rfl
  | cons hft _ ih => rw [List.map_cons, List.map_cons, hft.1, ih]

/-- The last sorting of a run changes nothing. -/
lemma sorted_concatenation (hbelow : ∀ f ∈ files, a.root.components <+: f.1.components)
    (hdistinct : files.Pairwise fun f g => f.1.components ≠ g.1.components)
    {texts : List (Path × String)} (htexts : List.Forall₂ Holds (a.ordered files) texts) (n : Nat) :
    Report.sorted ⟨a.concatenation texts, n⟩ = ⟨a.concatenation texts, n⟩ := by
  have hpaths := map_fst_eq_of_holds htexts
  have hbelow' : ∀ t ∈ texts, a.root.components <+: t.1.components := by
    intro t ht
    obtain ⟨f, hf, hft⟩ : ∃ f ∈ a.ordered files, f.1 = t.1 :=
      List.mem_map.1 (hpaths ▸ List.mem_map_of_mem ht)
    exact hft ▸ hbelow f (List.mem_of_mem_filter ((a.ordered_perm files).subset hf))
  have hordered : texts.Pairwise fun t u => t.1.compare u.1 = .lt := by
    rw [← List.pairwise_map (f := Prod.fst) (R := fun p q : Path => p.compare q = .lt), hpaths,
      List.pairwise_map]
    exact a.pairwise_ordered hdistinct
  rw [Report.sorted, List.mergeSort_of_pairwise (a.pairwise_concatenation hbelow' hordered)]

end Files

/-- A run over distinct files below the root is made of independent passes over the files that are
kept, in the order of their paths: if all of them hold texts, the report is what is found in the
texts one after the other, which the last sorting leaves as it is; otherwise there is no report.
The order in which the files are given does not matter. -/
theorem reportOn_eq_concatenation (a : Analyzer) (files : List (Path × ByteArray))
    (hbelow : ∀ f ∈ files, a.root.components <+: f.1.components)
    (hdistinct : files.Pairwise fun f g => f.1.components ≠ g.1.components) :
    (∃ ordered : List (Path × ByteArray), ordered.Perm (files.filter a.keeps) ∧
      (ordered.Pairwise fun f g => f.1.compare g.1 = .lt) ∧
      ((∀ f ∈ files, a.keeps f = true → ∃ text, String.fromUTF8? f.2 = some text) →
        ∃ texts : List (Path × String), List.Forall₂ Holds ordered texts ∧
          let report : Report :=
            ⟨texts.flatMap fun t => a.checkSource t.1 t.2, (files.filter a.keeps).length⟩
          a.reportOn files = .ok report ∧ report.sorted = report ∧
            ∀ t ∈ texts, (a.checkSource t.1 t.2).Pairwise fun v w => precedes v w = true)) ∧
      ((∃ f ∈ files, a.keeps f = true ∧ String.fromUTF8? f.2 = none) →
        a.reportOn files = .error .invalidText) ∧
      (∀ files' : List (Path × ByteArray), files'.Perm files →
        a.reportOn files' = a.reportOn files) ∧
      ∀ fs, Discovery.files? a.config.discovery.respectGitignore fs a.root = some files →
        a.analyze fs = a.reportOn files := by
  refine ⟨⟨a.ordered files, a.ordered_perm files, a.pairwise_ordered hdistinct, ?_⟩, ?_, ?_, ?_⟩
  · intro hvalid
    have hordered : ∀ f ∈ a.ordered files, ∃ text, String.fromUTF8? f.2 = some text := by
      intro f hf
      obtain ⟨hf, hkeeps⟩ := List.mem_filter.1 ((a.ordered_perm files).subset hf)
      exact hvalid f hf hkeeps
    obtain ⟨texts, htexts⟩ := exists_texts hordered
    have hsorted := a.sorted_concatenation hbelow hdistinct htexts (files.filter a.keeps).length
    refine ⟨texts, htexts, ?_, hsorted, fun t _ => a.pairwise_checkSource t.1 t.2⟩
    rw [reportOn, a.reportOf_eq_ok htexts, (a.ordered_perm files).length_eq]
    exact congrArg Except.ok hsorted
  · rintro ⟨f, hf, hkeeps, hinvalid⟩
    have hmem : f ∈ a.ordered files :=
      (a.ordered_perm files).mem_iff.2 (List.mem_filter.2 ⟨hf, hkeeps⟩)
    rw [reportOn, a.reportOf_eq_error hmem hinvalid]
    rfl
  · intro files' hperm
    rw [reportOn, reportOn, a.ordered_eq_of_perm hperm hdistinct]
  · intro fs hfs
    rw [a.analyze_eq, hfs]

/-- Two files that come in the wrong order, and one that is not kept.  In one of the two, rules
report in the other order than the places come. -/
theorem reportOn_eq_concatenation_two :
    let a : Analyzer := ⟨⟨"/repo"⟩, Rule.all .standard, [], .standard⟩
    let first := "import{query}from\"_generated/server\";query()"
    let second := "import{query as q,authenticatedQuery as w}from\"_generated/server\";" ++
      "w(\x7bhandler()\x7bctx.auth.getUserIdentity()\x7d\x7d);q()"
    let files : List (Path × ByteArray) :=
      [(⟨"/repo/b.ts"⟩, second.toUTF8), (⟨"/repo/b.txt"⟩, ⟨#[255]⟩),
        (⟨"/repo/a/b.ts"⟩, first.toUTF8)]
    let place := fun v : Violation => (v.code, v.location.file.text, v.location.offset)
    (∀ f ∈ files, a.root.components <+: f.1.components) ∧
      (files.Pairwise fun f g => f.1.components ≠ g.1.components) ∧
      (files.filter a.keeps).length = 2 ∧
      (∃ report, a.reportOn files = .ok report ∧ report.filesChecked = 2 ∧
        report.sorted = report ∧ report.violations.map place =
          [("AUTH001", "a/b.ts", 37), ("AUTH002", "b.ts", 79), ("AUTH001", "b.ts", 109)]) ∧
      a.reportOn files.reverse = a.reportOn files := by
  intro a first second files place
  have hbelow : ∀ f ∈ files, a.root.components <+: f.1.components := by decide +kernel
  have hdistinct : files.Pairwise fun f g => f.1.components ≠ g.1.components := by decide +kernel
  have hkept : files.filter a.keeps =
      [(⟨"/repo/b.ts"⟩, second.toUTF8), (⟨"/repo/a/b.ts"⟩, first.toUTF8)] := by decide +kernel
  have hfirst : String.fromUTF8? first.toUTF8 = some first := by decide +kernel
  have hsecond : String.fromUTF8? second.toUTF8 = some second := by decide +kernel
  have hvalid : ∀ f ∈ files, a.keeps f = true → ∃ text, String.fromUTF8? f.2 = some text := by
    intro f hf hkeeps
    have hmem : f ∈ files.filter a.keeps := List.mem_filter.2 ⟨hf, hkeeps⟩
    rw [hkept, List.mem_pair] at hmem
    rcases hmem with rfl | rfl
    · exact ⟨second, hsecond⟩
    · exact ⟨first, hfirst⟩
  obtain ⟨⟨ordered, hmembers, hpaths, hok⟩, -, hperm, -⟩ :=
    reportOn_eq_concatenation a files hbelow hdistinct
  obtain ⟨texts, htexts, hreport, hsorted, -⟩ := hok hvalid
  obtain rfl : ordered = [(⟨"/repo/a/b.ts"⟩, first.toUTF8), (⟨"/repo/b.ts"⟩, second.toUTF8)] := by
    refine eq_of_perm_of_lt ?_ hpaths (by decide +kernel)
    rw [hkept] at hmembers
    exact hmembers.trans (.swap _ _ _)
  obtain rfl : texts = [(⟨"/repo/a/b.ts"⟩, first), (⟨"/repo/b.ts"⟩, second)] :=
    List.right_unique_forall₂' rightUnique_holds htexts
      (.cons ⟨rfl, hfirst⟩ (.cons ⟨rfl, hsecond⟩ .nil))
  refine ⟨hbelow, hdistinct, by rw [hkept]; rfl,
    ⟨_, hreport, by rw [hkept]; rfl, hsorted, ?_⟩, hperm _ (List.reverse_perm _)⟩
  have hlater : (a.checkSource ⟨"/repo/b.ts"⟩ second).map place =
      [("AUTH002", "b.ts", 79), ("AUTH001", "b.ts", 109)] := by
    rw [checkSource, checkFile_eq]
    generalize hshares : List.flatMap _ _ = shares
    -- rule by rule, the call of the factory comes first
    have hplaces : shares.map place = [("AUTH001", "b.ts", 109), ("AUTH002", "b.ts", 79)] := by
      rw [← hshares]
      decide +kernel
    have hincreasing :
        shares.reverse.Pairwise fun v w => v.location.offset < w.location.offset := by
      rw [← List.pairwise_map (f := place) (R := fun x y => x.2.2 < y.2.2), List.map_reverse,
        hplaces]
      decide
    rw [mergeSort_eq_of_increasing (List.reverse_perm shares).symm hincreasing,
      List.map_reverse, hplaces]
    rfl
  rw [List.flatMap_cons, List.flatMap_cons, List.flatMap_nil, List.append_nil, List.map_append,
    hlater]
  decide +kernel

end Analyzer

end IdentityLint
