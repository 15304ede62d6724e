import IdentityLint.Syntax.Node
import IdentityLint.Text

/-!
Import aliases.

An `AliasTable` follows some exported names of some modules through the imports of a file: it
maps the name that an import binds to the name it was exported under.  When a name is bound
twice the later import counts.
-/

namespace IdentityLint

open Syntax

/-- Which modules to follow: those with one of some paths and those whose path contains one of
some fragments. -/
structure ModuleMatcher where
  paths : List String
  fragments : List String
  deriving Repr, DecidableEq, Inhabited

namespace ModuleMatcher

/-- Accepts no module. -/
def empty : ModuleMatcher := ⟨[], []⟩

/-- Also accepts the modules with the given paths. -/
def exactly (m : ModuleMatcher) (paths : List String) : ModuleMatcher :=
  { m with paths := m.paths ++ paths }

/-- Also accepts the modules whose path contains one of the given fragments.  An empty fragment
accepts nothing. -/
def containing (m : ModuleMatcher) (fragments : List String) : ModuleMatcher :=
  { m with fragments := m.fragments ++ fragments.filter (!·.isEmpty) }

/-- Is the module with the given path accepted? -/
def accepts (m : ModuleMatcher) (source : String) : Bool :=
  m.paths.contains source ||
    m.fragments.any fun f => Text.contains f.toList source.toList

end ModuleMatcher

/-- What a name in a file stands for. -/
structure Binding where
  /-- The name that the module exports. -/
  canonical : String
  /-- The path of the module. -/
  source : String
  deriving Repr, DecidableEq, Inhabited

/-- The names that the imports of a file bind to followed exports. -/
structure AliasTable where
  modules : ModuleMatcher
  /-- The exported names that are followed. -/
  symbols : List String
  /-- The names bound so far, latest first. -/
  bindings : List (String × Binding)
  deriving Repr, DecidableEq, Inhabited

namespace AliasTable

/-- The table before any import. -/
def new (modules : ModuleMatcher) (symbols : List String) : AliasTable := ⟨modules, symbols, []⟩

/-- The names of an import that are followed, with what they stand for. -/
def tracked (t : AliasTable) (decl : ImportDecl) : List (String × Binding) :=
  if t.modules.accepts decl.source then
    (decl.specifiers.filter fun s => t.symbols.contains s.imported).map fun s =>
      (s.bound, ⟨s.imported, decl.source⟩)
  else []

/-- How many names of an import are recorded. -/
def recorded (t : AliasTable) (decl : ImportDecl) : Nat := (t.tracked decl).length

/-- The table behind an import. -/
def register (t : AliasTable) (decl : ImportDecl) : AliasTable :=
  { t with bindings := (t.tracked decl).reverse ++ t.bindings }

/-- What a name stands for. -/
def binding? (t : AliasTable) (name : String) : Option Binding := t.bindings.lookup name

/-- The exported name that a name stands for. -/
def resolve? (t : AliasTable) (name : String) : Option String :=
  (t.binding? name).map (·.canonical)

/-- Is no name bound? -/
def isEmpty (t : AliasTable) : Bool := t.bindings.isEmpty

end AliasTable

end IdentityLint
