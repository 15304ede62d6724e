import IdentityLint.Syntax.Program
import IdentityLint.Violation

/-!
Source files: a path, the content found there, and the project that the file belongs to.
-/

namespace IdentityLint

open Syntax

/-- A source file. -/
structure SourceFile where
  /-- The path by which the file was found. -/
  path : Path
  /-- The path as it is reported: relative to the project if the file is inside it. -/
  relativePath : Path
  content : String
  deriving Repr, DecidableEq, Inhabited

namespace SourceFile

/-- The file at a path with a content, in the project at a root. -/
def new (path : Path) (content : String) (root : Path) : SourceFile :=
  ⟨path, path.relativeTo root, content⟩

/-- May elements in angle brackets stand in the file? -/
def isJsx (f : SourceFile) : Bool :=
  f.path.extension? == some "tsx" || f.path.extension? == some "jsx"

/-- The syntax tree of the file. -/
def tree (f : SourceFile) : Node := Node.parse f.isJsx f.content

/-- The place of a node of the file. -/
def location (f : SourceFile) (n : Node) : Location :=
  let p := Text.Position.of f.content.toList n.span.start
  ⟨f.relativePath, p.line, p.column, n.span.start, n.span.length⟩

end SourceFile

end IdentityLint
