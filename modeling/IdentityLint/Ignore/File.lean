import IdentityLint.Ignore.Pattern

/-!
Ignore files.

Of the lines of an ignore file that match a path, the last one decides: it ignores the path, or
allows it if it begins with an exclamation mark.  Lines that begin with a hash sign and lines that
are no patterns say nothing.
-/

namespace IdentityLint.Ignore

/-- A line of an ignore file. -/
structure Entry where
  patterns : List (List Token)
  /-- Does the line allow what it matches? -/
  allows : Bool
  /-- Does the line speak of directories only? -/
  directoriesOnly : Bool
  deriving Repr, DecidableEq, Inhabited

/-- What an ignore file says about a path. -/
inductive Verdict where
  | ignored
  | allowed
  deriving Repr, DecidableEq, Inhabited

/-- The line without the blanks at its end, unless the last one is escaped. -/
def trimmedLine (line : List Char) : List Char :=
  if "\\ ".toList.reverse.isPrefixOf line.reverse then line else Text.trimEnd line

/-- The text of a pattern as it is matched: at any depth unless it is anchored, and never the
directory itself where everything inside a directory is meant. -/
def completed (anchored : Bool) (text : List Char) : List Char :=
  let placed :=
    if anchored || text.contains '/' || text == "**".toList then text
    else "**/".toList ++ text
  if "/**".toList.reverse.isPrefixOf placed.reverse then placed ++ "/*".toList else placed

/-- A pattern without the slash at its end, and whether it had one. -/
def withoutFinalSlash (text : List Char) : List Char × Bool :=
  if text.getLast? == some '/' then
    let shorter := text.dropLast
    (if shorter.getLast? == some '\\' then shorter.dropLast else shorter, true)
  else (text, false)

/-- What a line says. -/
def Entry.ofLine? (line : List Char) : Option Entry := do
  let text := trimmedLine line
  if line.head? == some '#' || text.isEmpty then none
  else
    let (allows, anchored, body) :=
      match text with
      | '\\' :: '!' :: rest => (false, false, '!' :: rest)
      | '\\' :: '#' :: rest => (false, false, '#' :: rest)
      | '!' :: '/' :: rest => (true, true, rest)
      | '!' :: rest => (true, false, rest)
      | '/' :: rest => (false, true, rest)
      | rest => (false, false, rest)
    let (pattern, directoriesOnly) := withoutFinalSlash body
    return ⟨← parse? (completed anchored pattern), allows, directoriesOnly⟩

/-- The lines of an ignore file.  A byte order mark at its beginning does not count. -/
def entries (content : String) : List Entry :=
  let text := content.toList.dropWhile (· == '\ufeff')
  (Text.lines text).filterMap Entry.ofLine?

/-- Does a line speak of a path? -/
def Entry.appliesTo (e : Entry) (isDirectory : Bool) (path : List UInt8) : Bool :=
  (!e.directoriesOnly || isDirectory) && e.patterns.any (matchesBytes · path)

/-- What the lines of an ignore file say about a path: the last one that speaks of it counts. -/
def verdict? (es : List Entry) (isDirectory : Bool) (path : List UInt8) : Option Verdict :=
  (es.reverse.find? (·.appliesTo isDirectory path)).map fun e =>
    if e.allows then .allowed else .ignored

end IdentityLint.Ignore
