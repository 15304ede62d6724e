import IdentityLint.Rule

/-!
Checks: rules at work on a file.

Every rule that applies to a file gets a fresh state; one walk over the tree shows each of them
the nodes it looks at.  No check sees the state of another.
-/

namespace IdentityLint

open Syntax

/-- What a rule knows in the middle of a file. -/
inductive CheckState where
  | rawFactory (state : RawFactory.State)
  | identityLookup (state : IdentityLookup.State)
  deriving Repr, DecidableEq, Inhabited

/-- A rule in the middle of a file. -/
structure Check where
  rule : Rule
  state : CheckState
  deriving Repr, DecidableEq, Inhabited

namespace Check

/-- The check of a rule at the beginning of a file to which it applies. -/
def start (r : Rule) : Check :=
  match r.kind with
  | .rawFactory => ⟨r, .rawFactory (RawFactory.start r.conventions)⟩
  | .identityLookup => ⟨r, .identityLookup (IdentityLookup.start r.conventions)⟩

/-- The check of a rule at the beginning of a file, unless the file is exempt. -/
def start? (r : Rule) (file : SourceFile) : Option Check :=
  if r.exempts file then none else some (start r)

/-- The check behind a visit that the rule looks at. -/
def visit (file : SourceFile) (c : Check) (v : Visit) : Check :=
  match c.state with
  | .rawFactory s =>
    { c with state := .rawFactory (RawFactory.visit c.rule.conventions c.rule.severity file s v) }
  | .identityLookup s =>
    { c with
      state := .identityLookup (IdentityLookup.visit c.rule.conventions c.rule.severity file s v) }

/-- The check behind a visit. -/
def observe (file : SourceFile) (c : Check) (v : Visit) : Check :=
  if c.rule.interests.contains v.kind then c.visit file v else c

/-- The violations found, in the order of the visits. -/
def found (c : Check) : List Violation :=
  match c.state with
  | .rawFactory s => s.found
  | .identityLookup s => s.found

/-- The checks behind a walk over the tree of a file. -/
def runAll (file : SourceFile) (checks : List Check) : List Check :=
  file.tree.walk (fun cs v => cs.map fun c => c.observe file v) checks

end Check

end IdentityLint
