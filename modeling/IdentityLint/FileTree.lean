import IdentityLint.Path

/-!
File trees.

A file tree is the content of a file system: directories with named entries, and files with
bytes.  There are no links: every entry is a directory or a file of its own.  Paths are resolved
from the root directory; a component `..` leads to the parent.
-/

namespace IdentityLint

/-- A file or a directory. -/
inductive FileTree where
  | file (content : ByteArray)
  | directory (entries : List (String × FileTree))

namespace FileTree

/-- Is it a file? -/
def isFile : FileTree → Bool
  | file _ => true
  | directory _ => false

/-- The entry of a directory with a given name. -/
def entry? (t : FileTree) (name : String) : Option FileTree :=
  match t with
  | directory entries => entries.lookup name
  | file _ => none

/-- What is found along a list of names. -/
def descend? : FileTree → List String → Option FileTree
  | t, [] => some t
  | t, name :: names => (t.entry? name).bind (·.descend? names)

/-- Follows the components of a path from the directory with the given names, innermost first.
Every component has to exist, and all but the last have to be directories. -/
def resolve (t : FileTree) : List String → List Path.Component → Option (List String)
  | names, [] => some names
  | _, .root :: cs => t.resolve [] cs
  | names, .here :: cs => t.resolve names cs
  | names, .parent :: cs =>
    match t.descend? names.reverse with
    | some (directory _) => t.resolve names.tail cs
    | _ => none
  | names, .name s :: cs =>
    match t.descend? (s :: names).reverse with
    | some (file _) => if cs.isEmpty then some (s :: names) else none
    | some (directory _) => t.resolve (s :: names) cs
    | none => none

/-- Does the way a path is written say that it denotes a directory? -/
def wantsDirectory (p : Path) : Bool := p.parts.getLast?.any Path.isVoid

/-- The names on the way from the root to what a path denotes, relative to the directory `cwd`;
`none` if there is nothing.  The empty path denotes nothing. -/
def canonical? (t : FileTree) (cwd p : Path) : Option (List String) := do
  if p.text == "" then none
  else
    let names ← t.resolve [] (cwd.join p).components
    match t.descend? names.reverse with
    | some (file _) => if wantsDirectory p then none else return names.reverse
    | _ => return names.reverse

/-- What a path denotes, relative to the directory `cwd`. -/
def find? (t : FileTree) (cwd p : Path) : Option FileTree :=
  (t.canonical? cwd p).bind t.descend?

/-- The text of a file.  `none` if there is no file or its bytes are not valid UTF-8. -/
def text? : FileTree → Option String
  | file content => String.fromUTF8? content
  | directory _ => none

/-- The entries of a directory with the one of a given name replaced or added. -/
def setEntry (entries : List (String × FileTree)) (name : String) (t : FileTree) :
    List (String × FileTree) :=
  match entries with
  | [] => [(name, t)]
  | (n, u) :: rest => if n == name then (n, t) :: rest else (n, u) :: setEntry rest name t

/-- The entries of a directory; a file has none. -/
def entries : FileTree → List (String × FileTree)
  | directory es => es
  | file _ => []

/-- The tree with something new at the end of a list of names; directories on the way are made
where there are none. -/
def put : FileTree → List String → FileTree → FileTree
  | _, [], new => new
  | t, name :: names, new =>
    let child := ((t.entry? name).getD (directory [])).put names new
    directory (setEntry t.entries name child)

/-- The path of a list of names from the root. -/
def pathOf (names : List String) : Path := ⟨"/" ++ String.intercalate "/" names⟩

end FileTree

end IdentityLint
