/-!
The chain of function scopes.

Function literals are entered and left one after the other.  A `ScopeChain` knows the functions
that are open and, of every function ever entered, the function that was innermost when it was
entered last.  The walk outward from the innermost open function goes through these records, not
through the stack of open functions; the two agree as long as no open function is entered again.
When one is, its record may point inward and the walk has no end, so walks are cut off at a
given length.
-/

namespace IdentityLint

/-- The number of a function literal. -/
abbrev FunctionId : Type := Nat

/-- Nested function scopes. -/
structure ScopeChain where
  /-- The functions entered so far, latest first, with the function that enclosed each. -/
  entered : List (FunctionId × Option FunctionId)
  /-- The functions that are open, innermost first. -/
  opened : List FunctionId
  deriving Repr, DecidableEq, Inhabited

namespace ScopeChain

/-- The chain before any function is entered. -/
def empty : ScopeChain := ⟨[], []⟩

/-- The innermost open function. -/
def innermost? (s : ScopeChain) : Option FunctionId := s.opened.head?

/-- Enters a function inside the innermost open one. -/
def enter (s : ScopeChain) (f : FunctionId) : ScopeChain :=
  ⟨(f, s.innermost?) :: s.entered, f :: s.opened⟩

/-- Leaves the innermost open function, if there is one. -/
def exit (s : ScopeChain) : ScopeChain := ⟨s.entered, s.opened.tail⟩

/-- The function that was innermost when `f` was entered last. -/
def enclosing? (s : ScopeChain) (f : FunctionId) : Option FunctionId :=
  (s.entered.lookup f).join

/-- At most `n` functions met on the walk outward from `f`, which is the first of them. -/
def outward (s : ScopeChain) : Nat → Option FunctionId → List FunctionId
  | 0, _ => []
  | _ + 1, none => []
  | n + 1, some f => f :: s.outward n (s.enclosing? f)

/-- At most the first `n` functions of the walk outward from the innermost open function. -/
def ancestorsUpTo (s : ScopeChain) (n : Nat) : List FunctionId := s.outward n s.innermost?

/-- The functions around the current place, innermost first.  A walk that ends meets no
function twice, so it is no longer than the record of entries. -/
def ancestors (s : ScopeChain) : List FunctionId := s.ancestorsUpTo s.entered.length

end ScopeChain

end IdentityLint
