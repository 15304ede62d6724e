import IdentityLint.Text

/-!
Paths of files.

A path is a text whose parts are separated by slashes.  Empty parts and parts that are a single
dot do not count, except that a leading slash makes the path absolute and a leading dot of a
relative path is a component of its own.  Paths are compared component by component.
-/

namespace IdentityLint

/-- A path, as it is written. -/
structure Path where
  text : String
  deriving Repr, DecidableEq, Inhabited

namespace Path

/-- The components of paths. -/
inductive Component where
  | root
  | here
  | parent
  | name (text : String)
  deriving Repr, DecidableEq, Inhabited

namespace Component

/-- The rank of a component's kind in the order of components. -/
def rank : Component → Nat
  | root => 0
  | here => 1
  | parent => 2
  | name _ => 3

/-- The order of components: by kind, and names by their characters. -/
def compare (a b : Component) : Ordering :=
  match a, b with
  | name s, name t => Ord.compare s t
  | _, _ => Ord.compare a.rank b.rank

end Component

/-! ### Components -/

/-- The texts between the slashes. -/
def parts (p : Path) : List String := (Text.splitAt '/' p.text.toList).map String.ofList

/-- Does a part stand for no component? -/
def isVoid (part : String) : Bool := part == "" || part == "."

/-- The component that a part stands for. -/
def component (part : String) : Component := if part == ".." then .parent else .name part

/-- Does the path begin with a slash? -/
def isAbsolute (p : Path) : Bool := p.text.toList.head? == some '/'

/-- The components that begin a path whose parts are given, and the parts behind them. -/
def anchored (absolute : Bool) (parts : List String) : List Component × List String :=
  if absolute then ([.root], parts.tail)
  else if parts.head? == some "." then ([.here], parts.tail)
  else ([], parts)

/-- The components of a path. -/
def components (p : Path) : List Component :=
  let a := anchored p.isAbsolute p.parts
  a.1 ++ (a.2.filter (!isVoid ·)).map component

/-- The order of paths: lexicographic in their components. -/
def compare (p q : Path) : Ordering := go p.components q.components
where
  /-- The lexicographic order of lists of components. -/
  go : List Component → List Component → Ordering
    | [], [] => .eq
    | [], _ :: _ => .lt
    | _ :: _, [] => .gt
    | a :: as, b :: bs =>
      match a.compare b with
      | .eq => go as bs
      | o => o

/-! ### Parts of paths -/

/-- The path with the given parts, void ones at both ends left out. -/
def ofInnerParts (parts : List String) : Path :=
  let inner := (parts.dropWhile isVoid).reverse.dropWhile isVoid
  ⟨String.intercalate "/" inner.reverse⟩

/-- Takes components off the front of a list of parts. -/
def stripParts? : List Component → List String → Option (List String)
  | [], parts => some parts
  | _ :: _, [] => none
  | c :: cs, p :: parts =>
    if isVoid p then stripParts? (c :: cs) parts
    else if component p = c then stripParts? cs parts
    else none

/-- What is left of a path behind the components of another one, as it is written there; `none`
if the path does not begin with these components. -/
def relativeTo? (p root : Path) : Option Path :=
  let a := anchored p.isAbsolute p.parts
  let b := anchored root.isAbsolute root.parts
  let wanted := (b.2.filter (!isVoid ·)).map component
  if b.1.isEmpty && wanted.isEmpty then
    let inner := a.2.reverse.dropWhile isVoid
    let lead := if p.isAbsolute then "/" else if a.1.isEmpty then "" else "."
    let join := if a.1.isEmpty || p.isAbsolute || inner.isEmpty then "" else "/"
    some ⟨lead ++ join ++ String.intercalate "/" inner.reverse⟩
  else if a.1 = b.1 then (stripParts? wanted a.2).map ofInnerParts
  else none

/-- The path relative to a root; a path outside the root is kept as it is. -/
def relativeTo (p root : Path) : Path := (p.relativeTo? root).getD p

/-- The last component, if it is a name. -/
def fileName? (p : Path) : Option String :=
  match p.components.getLast? with
  | some (.name s) => some s
  | _ => none

/-- The text behind the last dot of the file name.  A dot at the beginning of the name makes no
extension. -/
def extension? (p : Path) : Option String :=
  match p.fileName? with
  | none => none
  | some s =>
    let tail := (s.toList.reverse.takeWhile (· != '.')).reverse
    if tail.length + 1 < s.length then some (String.ofList tail) else none

/-- The path of `q` inside `p`; an absolute `q` stands for itself. -/
def join (p q : Path) : Path :=
  if q.isAbsolute || p.text == "" then q
  else if p.text.toList.getLast? == some '/' then ⟨p.text ++ q.text⟩
  else ⟨p.text ++ "/" ++ q.text⟩

/-- The path without its last component; `none` for the root and for the empty path. -/
def parent? (p : Path) : Option Path :=
  let a := anchored p.isAbsolute p.parts
  let lead := if p.isAbsolute then "/" else if a.1.isEmpty then "" else "."
  match a.2.reverse.dropWhile isVoid with
  | _ :: inner =>
    let kept := (inner.dropWhile isVoid).reverse
    let join := if a.1.isEmpty || p.isAbsolute || kept.isEmpty then "" else "/"
    some ⟨lead ++ join ++ String.intercalate "/" kept⟩
  | [] => if a.1 = [.here] then some ⟨""⟩ else none

/-- The path itself and the paths around it, innermost first; at most `n` of them. -/
def ancestorsUpTo : Nat → Path → List Path
  | 0, p => [p]
  | n + 1, p =>
    match p.parent? with
    | some q => p :: ancestorsUpTo n q
    | none => [p]

/-- The path itself and the paths around it, innermost first. -/
def ancestors (p : Path) : List Path := ancestorsUpTo p.components.length p

/-- Is `suffix` the end of a path's text?  It is written with slashes and also matches a path
written with backslashes; an empty suffix is the end of nothing. -/
def endsWith (p : Path) (suffix : String) : Bool :=
  let tail := suffix.toList
  let backslashed := tail.map fun c => if c == '/' then '\\' else c
  !tail.isEmpty &&
    (tail.reverse.isPrefixOf p.text.toList.reverse ||
      backslashed.reverse.isPrefixOf p.text.toList.reverse)

end Path

end IdentityLint
