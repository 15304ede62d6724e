import IdentityLint.Proofs.MissingReason
import IdentityLint.Proofs.PathResolution

/-!
# Reported paths

The files below a root are found along the names of entries, and their paths are the path of the
root with these names behind it (`Path.below`).  A report gives the paths relative to the root, that
is, the names alone.  In a file tree whose entries can be told apart by their names
(`FileTree.WellNamed`) such a path names one file, and joined to the root it leads to this file.

There is an exception.  If the root is a file itself, no names are left, and what is reported is the
empty path.  Joined to the root it has the components of the root, but it ends with a slash, so
that it denotes nothing.
-/

namespace IdentityLint

namespace Path

/-! ### Paths below a root -/

/-- The path that leads on from another one along some names. -/
def below (root : Path) (names : List String) : Path :=
  names.foldl (fun p name => p.join ⟨name⟩) root

lemma components_of_isAbsolute {p : Path} (h : p.isAbsolute = true) :
    p.components = .root :: p.steps := by
  obtain ⟨first, rest, hparts⟩ := List.exists_cons_of_ne_nil p.parts_ne_nil
  have hfirst := (isAbsolute_iff hparts).1 h
  rw [components_of_parts hparts, if_pos hfirst, steps, hparts, hfirst.1,
    named_cons_of_isVoid (by decide)]

/-- The components of a path that begins in no special way are its steps. -/
lemma steps_of_components {p : Path} {names : List String}
    (h : p.components = names.map .name) : p.isAbsolute = false ∧ p.steps = names.map .name := by
  obtain ⟨first, rest, hparts⟩ := List.exists_cons_of_ne_nil p.parts_ne_nil
  rw [components_of_parts hparts] at h
  rw [Bool.eq_false_iff, ne_eq, isAbsolute_iff hparts, steps, hparts]
  split_ifs at h with habsolute hhere
  · cases names <;> cases h
  · cases names <;> cases h
  · exact ⟨habsolute, h⟩

section InnerParts

variable {parts : List String}

lemma ofInnerParts_of_named_eq_nil (h : named parts = []) : ofInnerParts parts = ⟨""⟩ := by
  have hvoid : parts.dropWhile isVoid = [] := by
    simpa [named, List.filter_eq_nil_iff, List.dropWhile_eq_nil_iff] using h
  rw [ofInnerParts, hvoid]
  rfl

/-- A path that is written from parts does not end like a directory if a part counts. -/
lemma wantsDirectory_ofInnerParts (hfree : ∀ part ∈ parts, '/' ∉ part.toList)
    (h : named parts ≠ []) : FileTree.wantsDirectory (ofInnerParts parts) = false := by
  have hbegin := trimEnd_isBeginning (parts.dropWhile isVoid)
  have hhead := List.head?_dropWhile_not isVoid (parts.dropWhile isVoid).reverse
  rw [← named_dropWhile, ← named_trimEnd] at h
  rw [ofInnerParts]
  -- what is left of the parts ends with one that counts
  cases hinner : (parts.dropWhile isVoid).reverse.dropWhile isVoid with
  | nil =>
    rw [hinner] at h
    exact absurd rfl h
  | cons last inner =>
    rw [hinner] at hhead hbegin
    have hfree' : ∀ part ∈ (last :: inner).reverse, '/' ∉ part.toList := fun part hpart =>
      hfree part ((List.dropWhile_sublist isVoid).mem (hbegin.subset hpart))
    rw [FileTree.wantsDirectory, parts_intercalate hfree' (by simp)]
    simpa using hhead

end InnerParts

section Below

variable {root : Path} (hroot : root.isAbsolute = true) {names : List String}
  (hnames : ∀ s ∈ names, IsName s)

include hroot in
lemma isAbsolute_below (names : List String) : (root.below names).isAbsolute = true := by
  induction names generalizing root with
  | nil => exact hroot
  | cons name names ih => exact ih (isAbsolute_join hroot _)

include hnames in
lemma steps_below : (root.below names).steps = root.steps ++ names.map .name := by
  induction names generalizing root with
  | nil => simp [below]
  | cons name names ih =>
    have hname := hnames name List.mem_cons_self
    have hrest : ∀ s ∈ names, IsName s := fun s hs => hnames s (List.mem_cons_of_mem _ hs)
    have hbelow : root.below (name :: names) = (root.join ⟨name⟩).below names := rfl
    rw [hbelow, ih hrest, steps_join, hname.isAbsolute_eq, if_neg (by decide), hname.steps_eq]
    simp

include hroot hnames in
lemma components_below : (root.below names).components = root.components ++ names.map .name := by
  rw [components_of_isAbsolute (isAbsolute_below hroot names), steps_below hnames,
    components_of_isAbsolute hroot, List.cons_append]

include hnames in
lemma wantsDirectory_below (hne : names ≠ []) :
    FileTree.wantsDirectory (root.below names) = false := by
  obtain ⟨init, last, rfl⟩ := (List.eq_nil_or_concat' names).resolve_left hne
  have hlast : (root.below (init ++ [last])) = (root.below init).join ⟨last⟩ := by simp [below]
  rw [hlast, wantsDirectory_join, (hnames last (by simp)).wantsDirectory_eq]

include hroot in
lemma components_ne_nil_of_isAbsolute : root.components ≠ [] := by
  rw [components_of_isAbsolute hroot]
  exact List.cons_ne_nil _ _

include hroot in
lemma relativeTo_self : root.relativeTo root = ⟨""⟩ := by
  obtain ⟨rest, hrest, hnamed, -⟩ :=
    exists_relativeTo_eq (List.prefix_refl _) (components_ne_nil_of_isAbsolute hroot)
  rw [hrest, ofInnerParts_of_named_eq_nil (by rw [hnamed, List.drop_length])]

include hroot hnames

lemma components_relativeTo_below :
    ((root.below names).relativeTo root).components = names.map .name := by
  have hcomponents := components_below hroot hnames
  rw [components_relativeTo ⟨_, hcomponents.symm⟩, hcomponents, List.drop_left]

lemma steps_join_relativeTo_below :
    (root.join ((root.below names).relativeTo root)).steps = root.steps ++ names.map .name := by
  obtain ⟨hrelative, hsteps⟩ := steps_of_components (components_relativeTo_below hroot hnames)
  rw [steps_join, hrelative, if_neg (by decide), hsteps]

lemma components_join_relativeTo_below :
    (root.join ((root.below names).relativeTo root)).components =
      (root.below names).components := by
  rw [components_of_isAbsolute (isAbsolute_join hroot _), steps_join_relativeTo_below hroot hnames,
    components_of_isAbsolute (isAbsolute_below hroot names), steps_below hnames]

/-- A relative path is empty exactly if nothing is left of the path behind the root. -/
lemma text_relativeTo_below_eq_empty_iff :
    ((root.below names).relativeTo root).text = "" ↔ names = [] := by
  constructor
  · intro hempty
    have hcomponents := components_relativeTo_below hroot hnames
    rw [show (root.below names).relativeTo root = ⟨""⟩ from congrArg Path.mk hempty] at hcomponents
    exact List.map_eq_nil_iff.1 hcomponents.symm
  · rintro rfl
    exact congrArg Path.text (relativeTo_self hroot)

lemma wantsDirectory_relativeTo_below (hne : names ≠ []) :
    FileTree.wantsDirectory ((root.below names).relativeTo root) = false := by
  have hcomponents := components_below hroot hnames
  obtain ⟨rest, hrest, hnamed, hfree⟩ :=
    exists_relativeTo_eq ⟨_, hcomponents.symm⟩ (components_ne_nil_of_isAbsolute hroot)
  rw [hrest]
  refine wantsDirectory_ofInnerParts hfree ?_
  rw [hnamed, hcomponents, List.drop_left]
  simpa using hne

end Below

end Path

/-! ### Files below a root -/

namespace FileTree

/-- In every directory the entries have names, and no two of them have the same. -/
inductive WellNamed : FileTree → Prop
  | file (content : ByteArray) : WellNamed (file content)
  | directory {entries : List (String × FileTree)} (distinct : (entries.map Prod.fst).Nodup)
      (names : ∀ e ∈ entries, Path.IsName e.1) (inside : ∀ e ∈ entries, WellNamed e.2) :
      WellNamed (directory entries)

lemma lookup_of_mem {entries : List (String × FileTree)} (h : (entries.map Prod.fst).Nodup)
    {e : String × FileTree} (he : e ∈ entries) : entries.lookup e.1 = some e.2 := by
  obtain ⟨front, back, rfl⟩ := List.append_of_mem he
  refine List.lookup_eq_some_iff.2 ⟨front, back, rfl, fun p hp => ?_⟩
  rw [List.map_append, List.map_cons, List.nodup_append] at h
  have hne := h.2.2 p.1 (List.mem_map_of_mem hp) e.1 List.mem_cons_self
  simpa using hne.symm

lemma WellNamed.descend? {t u : FileTree} {names : List String} (ht : t.WellNamed)
    (h : t.descend? names = some u) : u.WellNamed := by
  induction names generalizing t with
  | nil => exact Option.some.inj h ▸ ht
  | cons name names ih =>
    obtain ⟨v, hv, hu⟩ := Option.bind_eq_some_iff.1 h
    cases ht with
    | file content => cases hv
    | directory distinct hnames inside =>
      obtain ⟨front, back, rfl, -⟩ := List.lookup_eq_some_iff.1 hv
      exact ih (inside (name, v) (by simp)) hu

end FileTree

namespace Discovery

variable {respectGitignore : Bool} {layers : Layers} {path : Path} {f : Path × ByteArray}

/-- What is found among the entries of a directory is found in one of them. -/
lemma exists_entry_of_mem_filesOf {entries : List (String × FileTree)}
    (h : f ∈ filesOf respectGitignore layers path entries) :
    ∃ e ∈ entries, ∃ layers', f ∈ filesIn respectGitignore layers' (path.join ⟨e.1⟩) e.2 := by
  induction entries with
  | nil => simp [filesOf] at h
  | cons e entries ih =>
    obtain ⟨name, t⟩ := e
    rw [filesOf] at h
    rcases List.mem_append.1 h with hhere | hrest
    · split at hhere
      · cases hhere
      · exact ⟨(name, t), List.mem_cons_self, _, hhere⟩
    · obtain ⟨e, he, hfound⟩ := ih hrest
      exact ⟨e, List.mem_cons_of_mem _ he, hfound⟩

/-- A file is found along the names of entries, and its path goes along these names. -/
lemma exists_names_of_mem_filesIn {t : FileTree} (ht : t.WellNamed)
    (h : f ∈ filesIn respectGitignore layers path t) :
    ∃ names, (∀ s ∈ names, Path.IsName s) ∧ f.1 = path.below names ∧
      t.descend? names = some (.file f.2) := by
  induction ht generalizing layers path with
  | file content =>
    rw [filesIn, List.mem_singleton] at h
    exact ⟨[], by simp, by simp [h, Path.below], by simp [h, FileTree.descend?]⟩
  | @directory entries distinct hnames _ ih =>
    rw [filesIn] at h
    obtain ⟨e, he, layers', hfound⟩ := exists_entry_of_mem_filesOf h
    obtain ⟨names, hall, hpath, hdescend⟩ := ih e he hfound
    refine ⟨e.1 :: names, by simpa using ⟨hnames e he, hall⟩, hpath, ?_⟩
    rw [FileTree.descend?, FileTree.entry?, FileTree.lookup_of_mem distinct he, Option.bind_some,
      hdescend]

/-- All files below a root are found from the same directory or file. -/
lemma exists_names_of_files? {fs : FileTree} (hfs : fs.WellNamed) {root : Path}
    {files : List (Path × ByteArray)} (h : files? respectGitignore fs root = some files) :
    ∃ start, fs.canonical? ⟨"/"⟩ root = some start ∧ ∀ f ∈ files,
      ∃ names, (∀ s ∈ names, Path.IsName s) ∧ f.1 = root.below names ∧
        fs.descend? (start ++ names) = some (.file f.2) := by
  obtain ⟨start, hstart, h⟩ := Option.bind_eq_some_iff.1 h
  obtain ⟨t, ht, h⟩ := Option.bind_eq_some_iff.1 h
  obtain rfl := Option.some.inj h
  refine ⟨start, hstart, fun f hf => ?_⟩
  obtain ⟨names, hall, hpath, hfile⟩ := exists_names_of_mem_filesIn (hfs.descend? ht) hf
  refine ⟨names, hall, hpath, ?_⟩
  rw [FileTree.descend?_append, ht, Option.bind_some, hfile]

end Discovery

namespace FileTree

section Root

variable {fs : FileTree} {root p : Path} {start names : List String}
  (hroot : root.isAbsolute = true) (hstart : fs.canonical? ⟨"/"⟩ root = some start)

include hroot hstart

lemma resolve_root : fs.resolve [] root.steps = some start.reverse := by
  have hresolve := (canonical?_eq_some_iff.1 hstart).2.1
  rwa [Path.steps_join, if_pos hroot, List.nil_append] at hresolve

/-- A path that goes on along names denotes what is found along them. -/
lemma find?_of_steps (hp : p.isAbsolute = true) (hsteps : p.steps = root.steps ++ names.map .name)
    (hwants : wantsDirectory p = false) : fs.find? ⟨"/"⟩ p = fs.descend? (start ++ names) := by
  have hresolve := resolve_root hroot hstart
  refine find?_of_resolve hwants ?_
  rw [Path.steps_join, if_pos hp, List.nil_append, hsteps, resolve_append (by simp), hresolve,
    Option.bind_some, resolve_names (exists_descend?_of_resolve hresolve), List.reverse_reverse,
    List.reverse_append]

lemma find?_below (hnames : ∀ s ∈ names, Path.IsName s) :
    fs.find? ⟨"/"⟩ (root.below names) = fs.descend? (start ++ names) := by
  cases hcases : names with
  | nil =>
    rw [Path.below, List.foldl_nil, find?, hstart, List.append_nil]
    rfl
  | cons name rest =>
    rw [hcases] at hnames
    exact find?_of_steps hroot hstart (Path.isAbsolute_below hroot _) (Path.steps_below hnames)
      (Path.wantsDirectory_below hnames (List.cons_ne_nil _ _))

lemma find?_join_relativeTo_below (hnames : ∀ s ∈ names, Path.IsName s) (hne : names ≠ []) :
    fs.find? ⟨"/"⟩ (root.join ((root.below names).relativeTo root)) =
      fs.descend? (start ++ names) := by
  refine find?_of_steps hroot hstart (Path.isAbsolute_join hroot _)
    (Path.steps_join_relativeTo_below hroot hnames) ?_
  rw [Path.wantsDirectory_join, Path.wantsDirectory_relativeTo_below hroot hnames hne]

/-- Nothing is denoted by the path of a file with a slash behind it. -/
lemma find?_join_empty {content : ByteArray} (hfile : fs.descend? start = some (file content)) :
    fs.find? ⟨"/"⟩ (root.join ⟨""⟩) = none := by
  have hcanonical : fs.canonical? ⟨"/"⟩ (root.join ⟨""⟩) = none := by
    refine Option.eq_none_iff_forall_ne_some.2 fun reached h => ?_
    obtain ⟨-, hresolve, hwants⟩ := canonical?_eq_some_iff.1 h
    rw [Path.steps_join, if_pos (Path.isAbsolute_join hroot _), List.nil_append, Path.steps_join,
      if_neg (by decide)] at hresolve
    have hsame := (resolve_root hroot hstart).symm.trans (List.append_nil root.steps ▸ hresolve)
    obtain rfl : start = reached := List.reverse_inj.1 (Option.some.inj hsame)
    have hslash := hwants content hfile
    rw [Path.wantsDirectory_join] at hslash
    cases hslash
  rw [find?, hcanonical]
  rfl

end Root

/-- Names lead on from directories only. -/
lemma eq_nil_iff_of_descend? {t : FileTree} {start names : List String} {content : ByteArray}
    (h : t.descend? (start ++ names) = some (file content)) :
    names = [] ↔ ∃ content', t.descend? start = some (file content') := by
  constructor
  · rintro rfl
    exact ⟨content, List.append_nil start ▸ h⟩
  · rintro ⟨content', hfile⟩
    rw [descend?_append, hfile, Option.bind_some] at h
    cases names with
    | nil => rfl
    | cons name names => cases h

end FileTree

/-! ### Reports -/

namespace Analyzer

variable {a : Analyzer} {fs : FileTree} {v w : Violation} {f g : Path × ByteArray}

/-- The root is a file, and not a directory. -/
def RootIsFile (a : Analyzer) (fs : FileTree) : Prop :=
  ∃ content, fs.find? ⟨"/"⟩ a.root = some (.file content)

lemma isAbsolute_root {cwd : Path} (hcwd : cwd.isAbsolute = true) {settings : Settings}
    (h : build cwd settings = .ok a) : a.root.isAbsolute = true := by
  obtain ⟨-, exclude, -, rfl⟩ := a.build_eq_ok_iff.1 h
  dsimp only
  split
  · assumption
  · exact Path.isAbsolute_join hcwd _

/-- The files of a run are found from the root, and reported by the names that lead to them. -/
lemma exists_start (hfs : fs.WellNamed) {report : Report}
    (hreport : a.analyze fs = .ok report) :
    ∃ start, fs.canonical? ⟨"/"⟩ a.root = some start ∧ ∀ v f, a.ComesFrom fs v f →
      ∃ names, (∀ s ∈ names, Path.IsName s) ∧ f.1 = a.root.below names ∧
        fs.descend? (start ++ names) = some (.file f.2) ∧
        v.location.file = (a.root.below names).relativeTo a.root := by
  rw [a.analyze_eq] at hreport
  cases hfiles : Discovery.files? a.config.discovery.respectGitignore fs a.root with
  | none => simp [hfiles] at hreport
  | some files =>
    obtain ⟨start, hstart, hbelow⟩ := Discovery.exists_names_of_files? hfs hfiles
    refine ⟨start, hstart, fun v f hv => ?_⟩
    obtain ⟨files', hfiles', hf, -, text, -, hv⟩ := hv
    obtain rfl := Option.some.inj (hfiles.symm.trans hfiles')
    obtain ⟨names, hall, hpath, hfile⟩ := hbelow f hf
    obtain ⟨n, hlocation⟩ := a.exists_location_of_mem_checkSource hv
    exact ⟨names, hall, hpath, hfile, by rw [hlocation, hpath]; rfl⟩

/-- How a report names files, for every way to write the root.  A violation is reported exactly if
it comes from a file, which is found at the path by which it was read.  The root joined with the
reported path has the components of this path, and violations have reported paths with the same
components exactly if they come from the same file.  The reported path is empty exactly if the root
is a file itself; in that case the joined path denotes nothing, and otherwise it denotes the
file. -/
theorem location_names_file (fs : FileTree) (hfs : fs.WellNamed) (cwd : Path)
    (hcwd : cwd.isAbsolute = true) (settings : Settings) (a : Analyzer)
    (ha : build cwd settings = .ok a) (report : Report) (hreport : a.analyze fs = .ok report) :
    (∀ v, v ∈ report.violations ↔ ∃ f, a.ComesFrom fs v f) ∧
    (∀ v f, a.ComesFrom fs v f →
      fs.find? ⟨"/"⟩ f.1 = some (.file f.2) ∧
      (a.root.join v.location.file).components = f.1.components ∧
      (v.location.file.text = "" ↔ a.RootIsFile fs) ∧
      (a.RootIsFile fs → fs.find? ⟨"/"⟩ (a.root.join v.location.file) = none) ∧
      (¬a.RootIsFile fs → fs.find? ⟨"/"⟩ (a.root.join v.location.file) = some (.file f.2))) ∧
    ∀ v f w g, a.ComesFrom fs v f → a.ComesFrom fs w g →
      (v.location.file.components = w.location.file.components ↔ f = g) := by
  have hroot := isAbsolute_root hcwd ha
  obtain ⟨start, hstart, hnamed⟩ := exists_start hfs hreport
  refine ⟨fun v => a.mem_analyze_iff hreport, fun v f hv => ?_, fun v f w g hv hw => ?_⟩
  · obtain ⟨names, hnames, hpath, hfile, hlocation⟩ := hnamed v f hv
    -- the root is a file exactly if no names lead on from it
    have hnil : names = [] ↔ a.RootIsFile fs := by
      rw [RootIsFile, FileTree.find?, hstart]
      exact FileTree.eq_nil_iff_of_descend? hfile
    rw [hlocation, hpath]
    refine ⟨(FileTree.find?_below hroot hstart hnames).trans hfile,
      Path.components_join_relativeTo_below hroot hnames,
      (Path.text_relativeTo_below_eq_empty_iff hroot hnames).trans hnil,
      fun hisFile => ?_, fun hisDirectory => ?_⟩
    · obtain rfl := hnil.2 hisFile
      rw [show a.root.below [] = a.root from rfl, Path.relativeTo_self hroot]
      exact FileTree.find?_join_empty hroot hstart (List.append_nil start ▸ hfile)
    · rw [FileTree.find?_join_relativeTo_below hroot hstart hnames (mt hnil.1 hisDirectory), hfile]
  · obtain ⟨names, hnames, hpath, hfile, hlocation⟩ := hnamed v f hv
    obtain ⟨names', hnames', hpath', hfile', hlocation'⟩ := hnamed w g hw
    constructor
    · intro hsame
      rw [hlocation, hlocation', Path.components_relativeTo_below hroot hnames,
        Path.components_relativeTo_below hroot hnames'] at hsame
      obtain rfl : names = names' :=
        List.map_injective_iff.2 (fun _ _ => Path.Component.name.inj) hsame
      have hcontent : FileTree.file f.2 = .file g.2 := Option.some.inj (hfile.symm.trans hfile')
      exact Prod.ext (hpath.trans hpath'.symm) (FileTree.file.inj hcontent)
    · rintro rfl
      rw [hlocation, hlocation', ← hpath, ← hpath']

/-- Two files below a root that is written in a roundabout way. -/
theorem location_names_file_roundabout :
    let raw (path : Path) : Violation :=
      ⟨"AUTH001", "no-raw-convex-function", some "useAuthenticatedQuery", .error,
        ⟨path, 1, 38, 37, 5⟩,
        "Use `authenticatedQuery` instead of `query` from `_generated/server`",
        some ("import `authenticatedQuery` from the auth module; its handler receives the " ++
          "resolved identity")⟩
    let text := "import\x7bquery\x7dfrom\"_generated/server\";query()"
    let fs : FileTree := .directory [("repo", .directory
      [("a.ts", .file text.toUTF8), ("b", .directory [("a.ts", .file text.toUTF8)])])]
    let config : Config := ⟨⟨⟨"."⟩, [], true⟩, .standard, []⟩
    let settings : Settings := ⟨some ⟨"..//repo/./"⟩, Rule.all .standard, [], config⟩
    let a : Analyzer := ⟨⟨"/repo/..//repo/./"⟩, Rule.all .standard, [], config⟩
    let f : Path × ByteArray := (⟨"/repo/..//repo/./a.ts"⟩, text.toUTF8)
    let g : Path × ByteArray := (⟨"/repo/..//repo/./b/a.ts"⟩, text.toUTF8)
    fs.WellNamed ∧ (Path.mk "/repo").isAbsolute = true ∧ build ⟨"/repo"⟩ settings = .ok a ∧
      a.ComesFrom fs (raw ⟨"a.ts"⟩) f ∧ a.ComesFrom fs (raw ⟨"b/a.ts"⟩) g ∧ ¬a.RootIsFile fs ∧
      ∃ report, a.analyze fs = .ok report ∧ raw ⟨"a.ts"⟩ ∈ report.violations ∧
        raw ⟨"b/a.ts"⟩ ∈ report.violations ∧
        (a.root.join ⟨"b/a.ts"⟩).components = g.1.components ∧
        fs.find? ⟨"/"⟩ (a.root.join ⟨"b/a.ts"⟩) = some (.file text.toUTF8) ∧
        (Path.mk "a.ts").components ≠ (Path.mk "b/a.ts").components := by
  intro raw text fs config settings a f g
  have hfiles : Discovery.files? true fs a.root = some [f, g] := by decide +kernel
  have htext : String.fromUTF8? text.toUTF8 = some text := by decide +kernel
  have hf : a.ComesFrom fs (raw ⟨"a.ts"⟩) f :=
    ⟨_, hfiles, by simp, by decide +kernel, text, htext, by decide +kernel⟩
  have hg : a.ComesFrom fs (raw ⟨"b/a.ts"⟩) g :=
    ⟨_, hfiles, by simp, by decide +kernel, text, htext, by decide +kernel⟩
  have hfs : fs.WellNamed := by
    have hnames : Path.IsName "repo" ∧ Path.IsName "a.ts" ∧ Path.IsName "b" := by
      refine ⟨⟨?_, ?_, ?_⟩, ⟨?_, ?_, ?_⟩, ⟨?_, ?_, ?_⟩⟩ <;> decide +kernel
    refine .directory (by decide) (by simpa using hnames.1) ?_
    simp only [List.mem_singleton, forall_eq]
    refine .directory (by decide) (by simpa using hnames.2) ?_
    simp only [List.mem_cons, List.not_mem_nil, or_false, forall_eq_or_imp, forall_eq]
    refine ⟨.file _, .directory (by decide) (by simpa using hnames.2.1) ?_⟩
    simpa using .file _
  have hbuild : build ⟨"/repo"⟩ settings = .ok a :=
    a.build_eq_ok_iff.2
      ⟨by decide +kernel, [], rfl, congrArg (Analyzer.mk · _ _ _) (by decide +kernel)⟩
  have hdirectory : ¬a.RootIsFile fs := by
    rintro ⟨content, hcontent⟩
    have : (fs.find? ⟨"/"⟩ a.root).any FileTree.isFile = false := by decide +kernel
    rw [hcontent] at this
    cases this
  obtain ⟨texts, htexts⟩ : ∃ texts, List.Forall₂ Holds (a.ordered [f, g]) texts := by
    refine exists_texts fun x hx => ?_
    have hx' := List.mem_of_mem_filter ((a.ordered_perm [f, g]).subset hx)
    simp only [List.mem_cons, List.not_mem_nil, or_false] at hx'
    rcases hx' with rfl | rfl <;> exact ⟨text, htext⟩
  obtain ⟨report, hreport⟩ : ∃ report, a.analyze fs = .ok report := by
    refine ⟨Report.sorted ⟨a.concatenation texts, (a.ordered [f, g]).length⟩, ?_⟩
    rw [a.analyze_eq, show Discovery.files? a.config.discovery.respectGitignore fs a.root = _ from
      hfiles]
    simp only [reportOn, a.reportOf_eq_ok htexts]
    rfl
  obtain ⟨hmem, hlocation, hsame⟩ :=
    location_names_file fs hfs ⟨"/repo"⟩ (by decide) settings a hbuild report hreport
  obtain ⟨-, hjoined, -, -, hdenotes⟩ := hlocation _ _ hg
  refine ⟨hfs, by decide, hbuild, hf, hg, hdirectory, report, hreport, (hmem _).2 ⟨f, hf⟩,
    (hmem _).2 ⟨g, hg⟩, hjoined, hdenotes hdirectory, fun heq => ?_⟩
  exact absurd ((hsame _ _ _ _ hf hg).1 heq) (by decide +kernel)

/-- A file that is the root itself is reported by the empty path. -/
theorem root_file_has_empty_path :
    let raw : Violation :=
      ⟨"AUTH001", "no-raw-convex-function", some "useAuthenticatedQuery", .error,
        ⟨⟨""⟩, 1, 38, 37, 5⟩,
        "Use `authenticatedQuery` instead of `query` from `_generated/server`",
        some ("import `authenticatedQuery` from the auth module; its handler receives the " ++
          "resolved identity")⟩
    let text := "import\x7bquery\x7dfrom\"_generated/server\";query()"
    let fs : FileTree := .directory [("a.ts", .file text.toUTF8)]
    let config : Config := ⟨⟨⟨"."⟩, [], true⟩, .standard, []⟩
    let a : Analyzer := ⟨⟨"/a.ts"⟩, Rule.all .standard, [], config⟩
    build ⟨"/"⟩ ⟨some ⟨"a.ts"⟩, Rule.all .standard, [], config⟩ = .ok a ∧
      a.analyze fs = .ok ⟨[raw], 1⟩ ∧ raw.location.file.text = "" ∧
      fs.find? ⟨"/"⟩ (a.root.join raw.location.file) = none := by
  intro raw text fs config a
  have hsources : a.sources? fs = some [(⟨"/a.ts"⟩, text.toUTF8)] := by decide +kernel
  have htext : String.fromUTF8? text.toUTF8 = some text := by decide +kernel
  have hfound : a.checkSource ⟨"/a.ts"⟩ text = [raw] := by decide +kernel
  have hnothing : (fs.find? ⟨"/"⟩ (a.root.join raw.location.file)).isNone = true := by
    decide +kernel
  have hbuild : build ⟨"/"⟩ ⟨some ⟨"a.ts"⟩, Rule.all .standard, [], config⟩ = .ok a :=
    a.build_eq_ok_iff.2
      ⟨by decide +kernel, [], rfl, congrArg (Analyzer.mk · _ _ _) (by decide +kernel)⟩
  exact ⟨hbuild, a.analyze_of_single hsources htext hfound, rfl,
    Option.isNone_iff_eq_none.1 hnothing⟩

end Analyzer

end IdentityLint
