import IdentityLint.Value

/-!
Tables under construction.

A configuration file defines its tables piece by piece.  A table may be opened by a header of its
own, by the header of a table inside it, or by a dotted key; which of these happened decides what
may still be added to it.  No key may be defined twice.
-/

namespace IdentityLint.Toml

/-- How a table came about. -/
inductive Origin where
  /-- By a header of its own. -/
  | header
  /-- By the header of a table inside it. -/
  | implied
  /-- By a dotted key. -/
  | dotted
  deriving Repr, DecidableEq

/-- What a key stands for. -/
inductive Item where
  /-- A finished value. -/
  | value (v : Value)
  | table (origin : Origin) (entries : List (String × Item))
  /-- An array of tables, the latest first. -/
  | tables (elements : List (List (String × Item)))

/-- The entries of a table. -/
abbrev Entries : Type := List (String × Item)

namespace Entries

/-- The entries with the item of a key replaced, or a new one added at the end. -/
def set (es : Entries) (key : String) (item : Item) : Entries :=
  match es with
  | [] => [(key, item)]
  | (k, i) :: rest => if k == key then (k, item) :: rest else (k, i) :: set rest key item

end Entries

/-- Changes the table at the end of a path, opening tables on the way.  A dotted path may go only
through tables that headers do not define. -/
def descend (dotted : Bool) (change : Origin → Entries → Option Entries) (origin : Origin) :
    List String → Entries → Option Entries
  | [], es => change origin es
  | key :: path, es =>
    match es.lookup key with
    | none => do
      let new := if dotted then Origin.dotted else Origin.implied
      let inner ← descend dotted change new path []
      return Entries.set es key (.table new inner)
    | some (.value _) => none
    | some (.tables []) => none
    | some (.tables (latest :: earlier)) => do
      let inner ← descend dotted change .header path latest
      return Entries.set es key (.tables (inner :: earlier))
    | some (.table o inner) => do
      if dotted && o == .header then none
      else
        let inner ← descend dotted change o path inner
        return Entries.set es key (.table o inner)

/-- Defines a key, given the path of the table that holds it.  A dotted key defines it in a table
that dotted keys have opened. -/
def define (path : List String) (key : String) (v : Value) (origin : Origin) (es : Entries) :
    Option Entries :=
  descend true
    (fun o inner =>
      if !path.isEmpty && o != .dotted then none
      else if (inner.lookup key).isSome then none
      else some (Entries.set inner key (.value v)))
    origin path es

/-- Opens a table by its header. -/
def openTable (path : List String) (key : String) (es : Entries) : Option Entries :=
  descend false
    (fun _ inner =>
      match inner.lookup key with
      | none => some (Entries.set inner key (.table .header []))
      | some (.table .implied es') => some (Entries.set inner key (.table .header es'))
      | some _ => none)
    .header path es

/-- Opens the next table of an array of tables. -/
def openElement (path : List String) (key : String) (es : Entries) : Option Entries :=
  descend false
    (fun _ inner =>
      match inner.lookup key with
      | none => some (Entries.set inner key (.tables [[]]))
      | some (.tables elements) => some (Entries.set inner key (.tables ([] :: elements)))
      | some _ => none)
    .header path es

/-- Changes the table that the last header opened. -/
def within (path : List String) (change : Entries → Option Entries) (es : Entries) :
    Option Entries :=
  match path with
  | [] => change es
  | _ => descend false (fun _ inner => change inner) .header path es

mutual
/-- The value of an item. -/
def Item.toValue : Item → Value
  | .value v => v
  | .table _ entries => .record (entriesToFields entries)
  | .tables elements => .list (tablesToList elements).reverse
/-- The fields of a table. -/
def entriesToFields : List (String × Item) → List (String × Value)
  | [] => []
  | (k, i) :: rest => (k, i.toValue) :: entriesToFields rest
/-- The values of tables. -/
def tablesToList : List (List (String × Item)) → List Value
  | [] => []
  | t :: rest => .record (entriesToFields t) :: tablesToList rest
end

end IdentityLint.Toml
