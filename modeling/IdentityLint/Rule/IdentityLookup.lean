import IdentityLint.HandlerScopes
import IdentityLint.Source
import IdentityLint.Syntax.Walk

/-!
Identity lookups.

A wrapper resolves the identity of the caller before it runs its handler.  Outside the exempt
file, every call of the forbidden chain anywhere inside a handler is a violation, reported at
the call.
-/

namespace IdentityLint.IdentityLookup

open Syntax

/-- What the rule knows in the middle of a file. -/
structure State where
  scopes : HandlerScopes
  found : List Violation
  deriving Repr, DecidableEq, Inhabited

/-- The code of the rule. -/
def code : String := "AUTH002"

/-- The name of the rule. -/
def name : String := "no-ctx-identity-lookup"

/-- What the rule is for. -/
def description : String := "Forbids ctx.auth.getUserIdentity() inside authenticated handlers"

/-- The state at the beginning of a file. -/
def start (c : Conventions) : State := ⟨.new c, []⟩

/-- Does a call call the forbidden chain?  The callee has to be a member access, not one in
parentheses. -/
def isForbiddenCall (c : Conventions) (call : Node) : Bool :=
  match call.callee? with
  | some callee => callee.kind == .memberExpression && callee.memberChain? == some c.forbiddenCall
  | none => false

/-- The violation of a call of the forbidden chain. -/
def violation (c : Conventions) (severity : Severity) (file : SourceFile) (call : Node) :
    Violation where
  code := code
  rule := name
  messageId := some "useContextIdentity"
  severity := severity
  location := file.location call
  message :=
    "`" ++ String.intercalate "." c.forbiddenCall ++
      "()` inside an authenticated handler; the wrapper already resolved the identity"
  suggestion :=
    some "read the identity the authenticated wrapper places on the handler context"

/-- The state behind a call.  A call that has a handler is not looked at further. -/
def visitCall (c : Conventions) (severity : Severity) (file : SourceFile) (s : State)
    (v : Visit) : State :=
  match s.scopes.observeCall v.node with
  | (scopes, some _) => { s with scopes := scopes }
  | (scopes, none) =>
    if scopes.isEmpty || !isForbiddenCall c v.node then s
    else
      match scopes.enclosing? v.scopes with
      | some _ => { s with found := s.found ++ [violation c severity file v.node] }
      | none => s

/-- The state behind a visit. -/
def visit (c : Conventions) (severity : Severity) (file : SourceFile) (s : State) (v : Visit) :
    State :=
  match v.kind with
  | .importDeclaration => { s with scopes := s.scopes.observeImport v.node }
  | .callExpression => visitCall c severity file s v
  | _ => s

end IdentityLint.IdentityLookup
