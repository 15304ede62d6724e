import IdentityLint.FileTree

/-!
Lookup of the configuration file.

The first of these counts: the file named on the command line, whether it exists or not; a project
file in the directory of the target or the nearest directory around it; the file in the user's
configuration directory; the built-in settings.

The home of the user is what the variable `HOME` says.  Where it is empty or not set, there is no
home; the accounts of the system are not asked.
-/

namespace IdentityLint.Cli

/-- Where the configuration comes from. -/
inductive ConfigSource where
  /-- Named on the command line. -/
  | explicit (path : Path)
  /-- Found in the project of the target. -/
  | project (path : Path)
  /-- Found in the user's configuration directory. -/
  | shared (path : Path)
  | builtIn
  deriving Repr, DecidableEq, Inhabited

namespace ConfigSource

/-- The path of the file, if there is one. -/
def path? : ConfigSource → Option Path
  | explicit p => some p
  | project p => some p
  | shared p => some p
  | builtIn => none

end ConfigSource

/-- The names of project files, in the order in which they are tried in a directory. -/
def projectFileNames : List String := ["authlint.toml", ".authlint.toml"]

/-- The name of the file in the user's configuration directory. -/
def sharedFileName : String := "config.toml"

/-- Does a path denote a file? -/
def isFileAt (fs : FileTree) (cwd p : Path) : Bool := (fs.find? cwd p).any FileTree.isFile

/-- The directory at which the search for a project file begins: the target, or its parent if it
is a file, by its canonical path if it exists. -/
def searchStart? (fs : FileTree) (cwd target : Path) : Option Path := do
  let start ← if isFileAt fs cwd target then target.parent? else some target
  return ((fs.canonical? cwd start).map FileTree.pathOf).getD start

/-- The project file in a directory. -/
def projectFileIn? (fs : FileTree) (cwd dir : Path) : Option Path :=
  (projectFileNames.map fun n => dir.join ⟨n⟩).find? (isFileAt fs cwd)

/-- The project file of a target. -/
def projectFile? (fs : FileTree) (cwd target : Path) : Option Path := do
  let start ← searchStart? fs cwd target
  start.ancestors.findSome? (projectFileIn? fs cwd)

/-- The user's configuration directory. -/
def sharedDirectory? (environment : List (String × String)) : Option Path :=
  match environment.lookup "AUTHLINT_CONFIG_DIR" with
  | some dir => if dir.isEmpty then home else some ⟨dir⟩
  | none => home
where
  /-- The directory below the user's home. -/
  home : Option Path :=
    match environment.lookup "HOME" with
    | some dir => if dir.isEmpty then none else some ((Path.mk dir).join ⟨".authlint"⟩)
    | none => none

/-- Where the configuration for a target comes from. -/
def configSource (fs : FileTree) (cwd : Path) (environment : List (String × String))
    (explicit : Option Path) (target : Path) : ConfigSource :=
  match explicit with
  | some p => .explicit p
  | none =>
    match projectFile? fs cwd target with
    | some p => .project p
    | none =>
      match (sharedDirectory? environment).map (·.join ⟨sharedFileName⟩) with
      | some p => if isFileAt fs cwd p then .shared p else .builtIn
      | none => .builtIn

end IdentityLint.Cli
