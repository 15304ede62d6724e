import IdentityLint.Toml.Scalar
import IdentityLint.Toml.Table

/-!
Configuration files: keys, values, headers, and the document that they make up.
-/

namespace IdentityLint.Toml

open Parse

/-! ### Keys -/

/-- May the character stand in a key without quotes? -/
def isKeyChar (c : Char) : Bool := c.isAlphanum || c == '_' || c == '-'

/-- Reads a part of a key. -/
def keyPart : Parse String :=
  basicText <|> literalText <|>
  (do
    let cs ← run isKeyChar
    require !cs.isEmpty
    return String.ofList cs)

/-- Reads a key whose parts are separated by dots; returns the parts in front of the last one,
and the last one. -/
def key : Parse (List String × String) := do
  blanks
  let parts ← sepBy1 (blanks *> char '.' *> blanks) keyPart
  blanks
  match parts.getLast? with
  | some last => return (parts.dropLast, last)
  | none => failure

/-! ### Values -/

/-- Skips blanks, line breaks and comments. -/
def gap : Parse Unit := discard (many (discard (satisfy isBlank) <|> newline <|> comment))

/-- Reads an array, given a reader of values. -/
def array (value : Parse Value) : Parse Value := do
  char '['
  gap
  let items ← sepEnd (char ',' *> gap) do
    let v ← value
    gap
    return [v]
  char ']'
  return .list items

/-- Adds the pair of a key and a value to a table. -/
def addPair (es : Entries) (pair : (List String × String) × Value) : Option Entries :=
  define pair.1.1 pair.1.2 pair.2 .header es

/-- Reads the pair of a key and a value, given a reader of values. -/
def pair (value : Parse Value) : Parse ((List String × String) × Value) := do
  let k ← key
  char '='
  blanks
  let v ← value
  blanks
  return (k, v)

/-- Reads a table on one line, given a reader of values. -/
def inlineTable (value : Parse Value) : Parse Value := do
  char '\x7b'
  blanks
  let pairs ← optionD [] (sepBy1 (char ',' *> blanks) (pair value))
  char '\x7d'
  match pairs.foldlM addPair [] with
  | some es => return .record (entriesToFields es)
  | none => failure

/-- Reads a value nested at most `depth` levels deep. -/
def valueTo : Nat → Parse Value
  | 0 => failure
  | depth + 1 => array (valueTo depth) <|> inlineTable (valueTo depth) <|> scalar

/-- The deepest nesting of values. -/
def depthLimit : Nat := 80

/-- Reads a value. -/
def value : Parse Value := valueTo depthLimit

/-! ### Documents -/

/-- A document under construction: its tables, and the path of the table that the last header
opened. -/
structure Document where
  entries : Entries
  current : List String

namespace Document

/-- The document at the beginning of a file. -/
def empty : Document := ⟨[], []⟩

/-- Adds the pair of a key and a value to the current table. -/
def define? (d : Document) (p : (List String × String) × Value) : Option Document := do
  return { d with entries := ← within d.current (addPair · p) d.entries }

/-- Opens a table by its header. -/
def openTable? (d : Document) (k : List String × String) : Option Document := do
  return ⟨← openTable k.1 k.2 d.entries, k.1 ++ [k.2]⟩

/-- Opens the next table of an array of tables by its header. -/
def openElement? (d : Document) (k : List String × String) : Option Document := do
  return ⟨← openElement k.1 k.2 d.entries, k.1 ++ [k.2]⟩

end Document

/-- Lets a change that may fail follow what was read. -/
def orFail {α : Type} (result : Option α) : Parse α :=
  match result with
  | some a => pure a
  | none => failure

/-- Reads the rest of a line. -/
def lineEnd : Parse Unit := do
  blanks
  let _ ← attempt comment
  newline <|> (do require (← rest).isEmpty)

/-- Reads what a line says. -/
def line (d : Document) : Parse Document := do
  blanks
  (do
    symbol "[["
    let k ← key
    symbol "]]"
    orFail (d.openElement? k)) <|>
  (do
    absent (symbol "[[")
    char '['
    let k ← key
    char ']'
    orFail (d.openTable? k)) <|>
  (do
    let p ← pair value
    orFail (d.define? p)) <|>
  (do
    absent (satisfy fun c => c != '#' && c != '\n' && c != '\r')
    return d)

/-- Reads a document. -/
def document : Parse Document := do
  let _ ← attempt (char '\ufeff')
  let d ← iterate (fun d => line d <* lineEnd) .empty
  require (← rest).isEmpty
  return d

/-- The value of a configuration file; `none` if the file is not well formed. -/
def parse? (text : String) : Option Value :=
  (document (.start text.toList)).map fun r => .record (entriesToFields r.1.entries)

end IdentityLint.Toml
