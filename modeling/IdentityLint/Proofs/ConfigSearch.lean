import IdentityLint.Cli.ConfigLookup
import IdentityLint.Proofs.PathResolution
import Mathlib.Data.List.Find

/-!
# The search for a configuration

A project file is searched for in the directory of the target and in the directories around it,
nearest first.  All spellings of the target lead to the same search, with one exception: the parent
of a file that is given by a mere name is the empty path, which has no canonical form and nothing
around it.  Then only the current directory is searched, and what is found is named relative to it
(`Cli.projectFile?_of_bare`).
-/

namespace IdentityLint

namespace FileTree

/-- Is there a file at the end of a list of names? -/
def hasFile (t : FileTree) (names : List String) : Bool := (t.descend? names).any isFile

/-- The directory of what is at the end of a list of names: that of a file, or the directory that is
there. -/
def directoryOf (t : FileTree) (names : List String) : List String :=
  if t.hasFile names then names.dropLast else names

lemma exists_file_of_hasFile {t : FileTree} {names : List String} (h : t.hasFile names = true) :
    ∃ content, t.descend? names = some (file content) := by
  obtain ⟨u, hu, hfile⟩ := (Option.any_eq_true _ _).1 h
  cases u with
  | file content => exact ⟨content, hu⟩
  | directory entries => cases hfile

end FileTree

namespace Cli

open FileTree (pathOf outward)

/-- The places at which a project file is looked for in some directories, in order. -/
def candidates (dirs : List (List String)) : List (List String × String) :=
  dirs.flatMap fun dir => projectFileNames.map fun name => (dir, name)

/-- The first project file in some directories: the directory and the name. -/
def firstProjectFile? (fs : FileTree) (dirs : List (List String)) :
    Option (List String × String) :=
  (candidates dirs).find? fun c => fs.hasFile (c.1 ++ [c.2])

/-- Where the configuration comes from if there is no project file. -/
def sharedSource (fs : FileTree) (cwd : Path) (environment : List (String × String)) :
    ConfigSource :=
  match sharedDirectory? environment with
  | some dir =>
    if isFileAt fs cwd (dir.join ⟨"config.toml"⟩) then .shared (dir.join ⟨"config.toml"⟩)
    else .builtIn
  | none => .builtIn

/-- The target is a file, and it is given by its mere name. -/
def IsBareFile (fs : FileTree) (cwd target : Path) : Prop :=
  '/' ∉ target.text.toList ∧ isFileAt fs cwd target = true

section Search

variable {fs : FileTree} {cwd target : Path} {names : List String}

lemma configSource_none (fs : FileTree) (cwd target : Path) (environment : List (String × String)) :
    configSource fs cwd environment none target =
      match projectFile? fs cwd target with
      | some p => .project p
      | none => sharedSource fs cwd environment := by
  rw [configSource, sharedSource]
  cases projectFile? fs cwd target with
  | some p => rfl
  | none => cases sharedDirectory? environment <;> rfl

lemma isFileAt_eq (h : fs.canonical? cwd target = some names) :
    isFileAt fs cwd target = fs.hasFile names := by
  rw [isFileAt, FileTree.find?, h]
  rfl

lemma isName_of_mem_projectFileNames {name : String} (h : name ∈ projectFileNames) :
    Path.IsName name := by
  simp only [projectFileNames, List.mem_cons, List.not_mem_nil, or_false] at h
  rcases h with rfl | rfl <;> exact ⟨by decide, by decide, by decide⟩

/-- The first project file is in the first directory, or in one of the others. -/
lemma firstProjectFile?_cons (fs : FileTree) (dir : List String) (dirs : List (List String)) :
    firstProjectFile? fs (dir :: dirs) =
      ((projectFileNames.find? fun name => fs.hasFile (dir ++ [name])).map fun name =>
        (dir, name)).or (firstProjectFile? fs dirs) := by
  rw [firstProjectFile?, candidates, List.flatMap_cons, List.find?_append, List.find?_map]
  rfl

lemma projectFileIn?_eq {dir : Path} {dirNames : List String}
    (h : ∀ name ∈ projectFileNames,
      isFileAt fs cwd (dir.join ⟨name⟩) = fs.hasFile (dirNames ++ [name])) :
    projectFileIn? fs cwd dir =
      (projectFileNames.find? fun name => fs.hasFile (dirNames ++ [name])).map fun name =>
        dir.join ⟨name⟩ := by
  rw [projectFileIn?, List.find?_map]
  exact congrArg _ (List.find?_congr h)

/-! ### Canonical directories -/

lemma isFileAt_join_pathOf {dir : List String} (hdir : ∀ s ∈ dir, Path.IsName s) {name : String}
    (hname : Path.IsName name) :
    isFileAt fs cwd ((pathOf dir).join ⟨name⟩) = fs.hasFile (dir ++ [name]) := by
  have hsteps : (cwd.join ((pathOf dir).join ⟨name⟩)).steps = (dir ++ [name]).map .name := by
    rw [Path.steps_join, if_pos (Path.isAbsolute_join (FileTree.isAbsolute_pathOf dir) _),
      Path.steps_join, hname.isAbsolute_eq, if_neg (by decide), FileTree.steps_pathOf hdir,
      hname.steps_eq]
    simp
  have hresolve : fs.resolve [] (cwd.join ((pathOf dir).join ⟨name⟩)).steps =
      (fs.descend? (dir ++ [name])).map fun _ => (dir ++ [name]).reverse := by
    rw [hsteps, FileTree.resolve_names ⟨fs, rfl⟩]
    simp
  have hwants : FileTree.wantsDirectory ((pathOf dir).join ⟨name⟩) = false := by
    rw [Path.wantsDirectory_join, hname.wantsDirectory_eq]
  rw [isFileAt, FileTree.find?_of_resolve hwants hresolve]
  rfl

lemma findSome?_projectFileIn? {dirs : List (List String)}
    (hdirs : ∀ dir ∈ dirs, ∀ s ∈ dir, Path.IsName s) :
    (dirs.map pathOf).findSome? (projectFileIn? fs cwd) =
      (firstProjectFile? fs dirs).map fun c => (pathOf c.1).join ⟨c.2⟩ := by
  induction dirs with
  | nil => rfl
  | cons dir dirs ih =>
    have hcandidate : ∀ name ∈ projectFileNames,
        isFileAt fs cwd ((pathOf dir).join ⟨name⟩) = fs.hasFile (dir ++ [name]) := fun name hname =>
      isFileAt_join_pathOf (hdirs dir List.mem_cons_self) (isName_of_mem_projectFileNames hname)
    rw [List.map_cons, List.findSome?_cons, projectFileIn?_eq hcandidate, firstProjectFile?_cons,
      ih fun dir hdir => hdirs dir (List.mem_cons_of_mem _ hdir)]
    cases projectFileNames.find? fun name => fs.hasFile (dir ++ [name]) <;> rfl

/-- Unless the target is the mere name of a file, the search begins at its directory. -/
lemma searchStart?_of_target (h : fs.canonical? cwd target = some names)
    (hbare : ¬IsBareFile fs cwd target) :
    searchStart? fs cwd target = some (pathOf (fs.directoryOf names)) := by
  have hfile := isFileAt_eq h
  rw [searchStart?, FileTree.directoryOf, ← hfile]
  cases hisFile : isFileAt fs cwd target with
  | false => simp [h]
  | true =>
    obtain ⟨content, hcontent⟩ := FileTree.exists_file_of_hasFile (hfile.symm.trans hisFile)
    obtain ⟨dir, s, q, rfl, hparent, hslash, -⟩ := FileTree.exists_directory_of_file h hcontent
    have hcanonical := hslash (not_not.1 fun hslash => hbare ⟨hslash, hisFile⟩)
    simp [hparent, hcanonical]

lemma isName_of_mem_directoryOf (fs : FileTree) (h : ∀ s ∈ names, Path.IsName s) :
    ∀ s ∈ fs.directoryOf names, Path.IsName s := by
  intro s hs
  rw [FileTree.directoryOf] at hs
  split at hs
  · exact h s (List.mem_of_mem_dropLast hs)
  · exact h s hs

/-- The project file of a target is the nearest one. -/
lemma projectFile?_of_target (h : fs.canonical? cwd target = some names)
    (hbare : ¬IsBareFile fs cwd target) :
    projectFile? fs cwd target =
      (firstProjectFile? fs (outward (fs.directoryOf names))).map fun c =>
        (pathOf c.1).join ⟨c.2⟩ := by
  have hnames := isName_of_mem_directoryOf fs (FileTree.isName_of_canonical? h)
  rw [projectFile?, searchStart?_of_target h hbare, Option.bind_eq_bind, Option.bind_some,
    FileTree.ancestors_pathOf hnames]
  refine findSome?_projectFileIn? fun dir hdir s hs => hnames s ?_
  have hbegin : dir <+: fs.directoryOf names := (List.mem_inits _ _).1 (List.mem_reverse.1 hdir)
  exact hbegin.subset hs

/-! ### Mere names -/

section Bare

variable {dir : List String} (hcwd : fs.resolve [] cwd.steps = some dir.reverse) {name : String}
  (hname : Path.IsName name)

include hcwd hname

lemma resolve_join_name : fs.resolve [] (cwd.join ⟨name⟩).steps =
    (fs.descend? (dir ++ [name])).map fun _ => (dir ++ [name]).reverse := by
  have hsteps : (cwd.join ⟨name⟩).steps = cwd.steps ++ [name].map .name := by
    rw [Path.steps_join, hname.isAbsolute_eq, if_neg (by decide), hname.steps_eq]
    rfl
  rw [hsteps, FileTree.resolve_append (by simp), hcwd, Option.bind_some,
    FileTree.resolve_names (FileTree.exists_descend?_of_resolve hcwd), List.reverse_reverse]
  simp

lemma canonical?_name : fs.canonical? cwd ⟨name⟩ = (fs.descend? (dir ++ [name])).map fun _ =>
    dir ++ [name] :=
  FileTree.canonical?_of_resolve hname.wantsDirectory_eq (resolve_join_name hcwd hname)

lemma isFileAt_name : isFileAt fs cwd ⟨name⟩ = fs.hasFile (dir ++ [name]) := by
  rw [isFileAt, FileTree.find?_of_resolve hname.wantsDirectory_eq (resolve_join_name hcwd hname)]
  rfl

end Bare

/-- The mere name of a file is looked up in the current directory. -/
lemma resolve_of_bare (h : fs.canonical? cwd target = some names)
    (hbare : IsBareFile fs cwd target) :
    target.parent? = some ⟨""⟩ ∧
      fs.resolve [] cwd.steps = some (fs.directoryOf names).reverse := by
  have hfile := (isFileAt_eq h).symm.trans hbare.2
  obtain ⟨content, hcontent⟩ := FileTree.exists_file_of_hasFile hfile
  obtain ⟨dir, s, q, rfl, hparent, -, hslash⟩ := FileTree.exists_directory_of_file h hcontent
  obtain ⟨rfl, hcwd⟩ := hslash hbare.1
  rw [FileTree.directoryOf, if_pos hfile, List.dropLast_concat]
  exact ⟨hparent, hcwd⟩

/-- For the mere name of a file only the current directory is searched. -/
lemma projectFile?_of_bare (h : fs.canonical? cwd target = some names)
    (hbare : IsBareFile fs cwd target) :
    projectFile? fs cwd target =
      (firstProjectFile? fs [fs.directoryOf names]).map fun c => ⟨c.2⟩ := by
  obtain ⟨hparent, hcwd⟩ := resolve_of_bare h hbare
  have hstart : searchStart? fs cwd target = some ⟨""⟩ := by
    simp [searchStart?, hbare.2, hparent, FileTree.canonical?]
  have hjoin : ∀ name, Path.join ⟨""⟩ ⟨name⟩ = ⟨name⟩ := fun name => if_pos (by simp)
  have hcandidate : ∀ name ∈ projectFileNames,
      isFileAt fs cwd (Path.join ⟨""⟩ ⟨name⟩) = fs.hasFile (fs.directoryOf names ++ [name]) := by
    intro name hname
    rw [hjoin, isFileAt_name hcwd (isName_of_mem_projectFileNames hname)]
  have hancestors : (Path.mk "").ancestors = [⟨""⟩] := by decide
  rw [projectFile?, hstart, Option.bind_eq_bind, Option.bind_some, hancestors,
    List.findSome?_singleton, projectFileIn?_eq hcandidate, firstProjectFile?_cons]
  simp only [hjoin]
  cases projectFileNames.find? fun name => fs.hasFile (fs.directoryOf names ++ [name]) <;> rfl

/-- What is found for the mere name of a file is a file of the current directory. -/
lemma canonical?_of_bare (h : fs.canonical? cwd target = some names)
    (hbare : IsBareFile fs cwd target) {c : List String × String}
    (hc : firstProjectFile? fs [fs.directoryOf names] = some c) :
    fs.canonical? cwd ⟨c.2⟩ = some (c.1 ++ [c.2]) := by
  obtain ⟨-, hcwd⟩ := resolve_of_bare h hbare
  rw [firstProjectFile?] at hc
  have hfile := List.find?_some hc
  obtain ⟨content, hcontent⟩ := FileTree.exists_file_of_hasFile hfile
  have hmem := List.mem_of_find?_eq_some hc
  rw [candidates, List.flatMap_singleton] at hmem
  obtain ⟨name, hname, rfl⟩ := List.mem_map.1 hmem
  rw [canonical?_name hcwd (isName_of_mem_projectFileNames hname), hcontent]
  rfl

end Search

/-- Where the configuration for a target that exists comes from.  A file that is named explicitly is
taken as it is.  Otherwise it is the nearest project file, the first in the directory of the target
and the directories around it; if there is none, the user's file if it exists; and else the built-in
settings.  So it depends on the target only, not on its spelling.  But for the mere name of a file
the directories around the current one are left out, and the project file is named relative to
it. -/
theorem configSource_of_target (fs : FileTree) (cwd : Path) (environment : List (String × String))
    (target : Path) (names : List String) (htarget : fs.canonical? cwd target = some names) :
    let dir := fs.directoryOf names
    (∀ p, configSource fs cwd environment (some p) target = .explicit p) ∧
    (¬IsBareFile fs cwd target →
      configSource fs cwd environment none target =
        match firstProjectFile? fs (outward dir) with
        | some c => .project ((pathOf c.1).join ⟨c.2⟩)
        | none => sharedSource fs cwd environment) ∧
    (∀ other, fs.canonical? cwd other = some names → ¬IsBareFile fs cwd target →
      ¬IsBareFile fs cwd other → ∀ explicit,
        configSource fs cwd environment explicit other =
          configSource fs cwd environment explicit target) ∧
    (IsBareFile fs cwd target →
      (configSource fs cwd environment none target =
        match firstProjectFile? fs [dir] with
        | some c => .project ⟨c.2⟩
        | none => sharedSource fs cwd environment) ∧
      ∀ c, firstProjectFile? fs [dir] = some c →
        fs.canonical? cwd ⟨c.2⟩ = some (c.1 ++ [c.2])) := by
  intro dir
  refine ⟨fun p => rfl, fun hbare => ?_, fun other hother hbare hbare' explicit => ?_,
    fun hbare => ⟨?_, fun c => canonical?_of_bare htarget hbare⟩⟩
  · rw [configSource_none, projectFile?_of_target htarget hbare]
    cases firstProjectFile? fs (outward dir) <;> rfl
  · cases explicit with
    | some p => rfl
    | none =>
      rw [configSource_none, configSource_none, projectFile?_of_target htarget hbare,
        projectFile?_of_target hother hbare']
  · rw [configSource_none, projectFile?_of_bare htarget hbare]
    cases firstProjectFile? fs [dir] <;> rfl

/-- A target in a directory inside another one with a project file, below a project file that is
farther away. -/
theorem configSource_of_target_nearest :
    let fs : FileTree := .directory [("authlint.toml", .file .empty), ("repo", .directory
      [(".authlint.toml", .file .empty), ("convex", .directory [("notes.ts", .file .empty)])])]
    let target : Path := ⟨"../repo//convex/./notes.ts"⟩
    let names := ["repo", "convex", "notes.ts"]
    (fs.canonical? ⟨"/repo"⟩ target = some names ∧ ¬IsBareFile fs ⟨"/repo"⟩ target ∧
      configSource fs ⟨"/repo"⟩ [] none target = .project ⟨"/repo/.authlint.toml"⟩) ∧
    (fs.canonical? ⟨"/repo"⟩ ⟨"/repo/convex/notes.ts"⟩ = some names ∧
      configSource fs ⟨"/repo"⟩ [] none ⟨"/repo/convex/notes.ts"⟩ =
        configSource fs ⟨"/repo"⟩ [] none target) ∧
    (IsBareFile fs ⟨"/repo/convex"⟩ ⟨"notes.ts"⟩ ∧
      configSource fs ⟨"/repo/convex"⟩ [] none ⟨"notes.ts"⟩ = .builtIn) := by
  intro fs target names
  have htarget : fs.canonical? ⟨"/repo"⟩ target = some names := by decide +kernel
  have hother : fs.canonical? ⟨"/repo"⟩ ⟨"/repo/convex/notes.ts"⟩ = some names := by decide +kernel
  have hname : fs.canonical? ⟨"/repo/convex"⟩ ⟨"notes.ts"⟩ = some names := by decide +kernel
  have hslash : ¬IsBareFile fs ⟨"/repo"⟩ target := fun h => h.1 (by decide +kernel)
  have hslash' : ¬IsBareFile fs ⟨"/repo"⟩ ⟨"/repo/convex/notes.ts"⟩ :=
    fun h => h.1 (by decide +kernel)
  have hbare : IsBareFile fs ⟨"/repo/convex"⟩ ⟨"notes.ts"⟩ := ⟨by decide, by decide +kernel⟩
  obtain ⟨-, hnearest, hspelling, -⟩ := configSource_of_target fs ⟨"/repo"⟩ [] target names htarget
  obtain ⟨-, -, -, honly⟩ := configSource_of_target fs ⟨"/repo/convex"⟩ [] ⟨"notes.ts"⟩ names hname
  refine ⟨⟨htarget, hslash, (hnearest hslash).trans (by decide +kernel)⟩,
    ⟨hother, hspelling _ hother hslash hslash' none⟩, hbare, ?_⟩
  exact (honly hbare).1.trans (by decide +kernel)

/-- Two spellings of one target, of which the mere name misses the project file around it. -/
theorem bare_name_misses_project :
    let fs : FileTree := .directory [("repo", .directory
      [("authlint.toml", .file .empty), ("convex", .directory [("notes.ts", .file .empty)])])]
    let cwd : Path := ⟨"/repo/convex"⟩
    fs.canonical? cwd ⟨"notes.ts"⟩ = some ["repo", "convex", "notes.ts"] ∧
      fs.canonical? cwd ⟨"./notes.ts"⟩ = some ["repo", "convex", "notes.ts"] ∧
      configSource fs cwd [] none ⟨"./notes.ts"⟩ = .project ⟨"/repo/authlint.toml"⟩ ∧
      configSource fs cwd [] none ⟨"notes.ts"⟩ = .builtIn := by
  decide +kernel

end Cli

end IdentityLint
