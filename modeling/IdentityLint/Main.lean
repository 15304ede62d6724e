import IdentityLint.Cli.Command

/-!
The command line program.

Everything that a run may look at is read into a file tree first: what is below the target, and in
the directories around it and around the current directory the configuration and ignore files.
The run itself is `Cli.run`; what it asks for is then printed and written.
-/

namespace IdentityLint.Cli

/-- The names of the files that matter in the directories around a target. -/
def surroundingNames : List String := projectFileNames ++ [".gitignore", ".ignore"]

/-- The file at a path, if there is one. -/
def readFileAt (path : String) : IO (Option FileTree) := do
  try
    return some (.file (← IO.FS.readBinFile path))
  catch _ => return none

/-- What is found at a path; what cannot be read is left out. -/
partial def readTree (path : String) : IO (Option FileTree) := do
  match ← readFileAt path with
  | some t => return some t
  | none =>
    try
      let mut entries : List (String × FileTree) := []
      for e in ← (← IO.FS.realPath path).readDir do
        if let some t ← readTree (path ++ "/" ++ e.fileName) then
          entries := (e.fileName, t) :: entries
      return some (.directory entries.reverse)
    catch _ => return none

/-- Adds what is found at a path to a tree. -/
def addTree (fs : FileTree) (names : List String) (found : Option FileTree) : FileTree :=
  match found with
  | some t => fs.put names t
  | none => fs

/-- Adds the files that matter in a directory and in the directories around it. -/
def addSurroundings (fs : FileTree) (dir : List String) : IO FileTree := do
  let mut fs := fs
  for n in List.range (dir.length + 1) do
    for name in surroundingNames do
      let names := dir.take n ++ [name]
      if (fs.descend? names).isNone then
        fs := addTree fs names (← readFileAt (FileTree.pathOf names).text)
  return fs

/-- The names on the way from the root to what a path denotes; empty if there is nothing. -/
def namesOf (path : String) : IO (List String) := do
  try
    let real := (← IO.FS.realPath path).toString
    return (Path.mk real).components.filterMap fun
      | .name s => some s
      | _ => none
  catch _ => return []

/-- The paths that a run may look at as a whole. -/
def targets (environment : List (String × String)) (args : List String) : List Path :=
  let shared := (sharedDirectory? environment).map (·.join ⟨sharedFileName⟩)
  match request (environmentConfig? environment) args with
  | .run config (.check o) => o.path :: config.toList ++ shared.toList
  | .run config .listRules => config.toList ++ shared.toList
  | _ => []

/-- The part of the file system that a run may look at. -/
def loadFiles (cwd : String) (environment : List (String × String)) (args : List String) :
    IO FileTree := do
  let here ← namesOf cwd
  let mut fs := (FileTree.directory []).put here (.directory [])
  for target in targets environment args do
    let path := ((Path.mk cwd).join target).text
    let names ← namesOf path
    if !names.isEmpty then
      fs := addTree fs names (← readTree path)
      fs ← addSurroundings fs names.dropLast
  addSurroundings fs here

/-- The variables of the environment that matter. -/
def environmentNames : List String := ["AUTHLINT_CONFIG", "AUTHLINT_CONFIG_DIR", "HOME"]

/-- Runs the program on the real file system. -/
def runOnDisk (args : List String) : IO UInt32 := do
  let cwd := (← IO.FS.realPath ".").toString
  let environment ← environmentNames.filterMapM fun n => do
    return (← IO.getEnv n).map (n, ·)
  let files ← loadFiles cwd environment args
  let outcome := run ⟨args, ⟨cwd⟩, environment, files⟩
  for w in outcome.warnings do
    IO.eprintln (" WARN " ++ w)
  for (path, text) in outcome.written do
    IO.FS.writeFile path.text text
  IO.print outcome.output
  if let some e := outcome.error then
    IO.eprintln ("Error: " ++ e)
  return UInt32.ofNat outcome.status

end IdentityLint.Cli

/-- The command line program. -/
def main (args : List String) : IO UInt32 := IdentityLint.Cli.runOnDisk args
