import IdentityLint.FileTree
import IdentityLint.Ignore.File

/-!
Discovery of source files.

All files below a root are considered, hidden ones included.  Ignore files in the directory of a
file and in all directories around it are honoured, also above the root: those named `.ignore`
always and before those named `.gitignore`, and in each group the nearest one that speaks of the
file counts.  What is inside an ignored directory is ignored.  The root itself is never ignored.

No other file has a say: neither the exclusions in the `.git` directory of a repository nor a
user's own list of what to ignore everywhere is looked at.
-/

namespace IdentityLint.Discovery

open Ignore

/-- The ignore files of one directory. -/
structure Layer where
  /-- The lines of the file named `.ignore`. -/
  plain : List Ignore.Entry
  /-- The lines of the file named `.gitignore`, if it is to be honoured. -/
  versioned : List Ignore.Entry
  deriving Repr, Inhabited

/-- The lines of an ignore file of a directory. -/
def linesOf (t : FileTree) (name : String) : List Ignore.Entry :=
  match (t.entry? name).bind FileTree.text? with
  | some content => entries content
  | none => []

/-- The ignore files of a directory. -/
def Layer.of (respectGitignore : Bool) (t : FileTree) : Layer :=
  ⟨linesOf t ".ignore", if respectGitignore then linesOf t ".gitignore" else []⟩

/-- The ignore files that bear on the entries of a directory, nearest first, each with the names
that lead from its own directory to that directory. -/
abbrev Layers : Type := List (Layer × List String)

/-- The bytes of a path made of names. -/
def pathBytes (names : List String) : List UInt8 :=
  (String.intercalate "/" names).toUTF8.toList

/-- Is an entry ignored? -/
def isIgnored (layers : Layers) (name : String) (isDirectory : Bool) : Bool :=
  let judge (pick : Layer → List Ignore.Entry) : Option Verdict :=
    layers.findSome? fun l => verdict? (pick l.1) isDirectory (pathBytes (l.2 ++ [name]))
  (judge Layer.plain <|> judge Layer.versioned) == some .ignored

/-- The layers for the entries of a directory that is itself an entry. -/
def Layers.into (layers : Layers) (name : String) (layer : Layer) : Layers :=
  (layer, []) :: layers.map fun l => (l.1, l.2 ++ [name])

/-- The layers for the entries of the directory at the end of a list of names. -/
def layersAlong (respectGitignore : Bool) (layers : Layers) : List String → FileTree → Layers
  | [], t => (Layer.of respectGitignore t, []) :: layers
  | name :: names, t =>
    match t.entry? name with
    | some u =>
      let here := (Layer.of respectGitignore t, []) :: layers
      layersAlong respectGitignore (here.map fun l => (l.1, l.2 ++ [name])) names u
    | none => layers

mutual
/-- The files in a tree that are not ignored, with their paths; `layers` are those that bear on
the entries of the tree. -/
def filesIn (respectGitignore : Bool) (layers : Layers) (path : Path) :
    FileTree → List (Path × ByteArray)
  | .file content => [(path, content)]
  | .directory entries => filesOf respectGitignore layers path entries
/-- The files among the entries of a directory that are not ignored. -/
def filesOf (respectGitignore : Bool) (layers : Layers) (path : Path) :
    List (String × FileTree) → List (Path × ByteArray)
  | [] => []
  | (name, t) :: rest =>
    let here :=
      if isIgnored layers name !t.isFile then []
      else
        filesIn respectGitignore (layers.into name (Layer.of respectGitignore t))
          (path.join ⟨name⟩) t
    here ++ filesOf respectGitignore layers path rest
end

/-- The files below a root that are not ignored, the root itself included; `none` if there is no
such root. -/
def files? (respectGitignore : Bool) (fs : FileTree) (root : Path) :
    Option (List (Path × ByteArray)) := do
  let names ← fs.canonical? ⟨"/"⟩ root
  let t ← fs.descend? names
  return filesIn respectGitignore (layersAlong respectGitignore [] names fs) root t

end IdentityLint.Discovery
