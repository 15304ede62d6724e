import IdentityLint.HandlerScopes
import IdentityLint.Source
import IdentityLint.Syntax.Walk

/-!
Raw factories.

A factory of the server module builds an endpoint that anybody may call.  Outside the exempt
file, every call of a banned factory by a name that an import binds is a violation, reported at
the name.
-/

namespace IdentityLint.RawFactory

open Syntax

/-- What the rule knows in the middle of a file. -/
structure State where
  aliases : AliasTable
  found : List Violation
  deriving Repr, DecidableEq, Inhabited

/-- The code of the rule. -/
def code : String := "AUTH001"

/-- The name of the rule. -/
def name : String := "no-raw-convex-function"

/-- What the rule is for. -/
def description : String :=
  "Forbids raw query/mutation factories where an authenticated wrapper exists"

/-- The state at the beginning of a file. -/
def start (c : Conventions) : State :=
  ⟨.new (ModuleMatcher.empty.containing c.serverModules) (c.banned.map (·.raw)), []⟩

/-- The violation of a call of a banned factory from a module, by the name at `callee`. -/
def violation (severity : Severity) (file : SourceFile) (callee : Node) (banned : BannedFactory)
    (source : String) : Violation where
  code := code
  rule := name
  messageId := some banned.messageId
  severity := severity
  location := file.location callee
  message :=
    "Use `" ++ banned.wrapper ++ "` instead of `" ++ banned.raw ++ "` from `" ++ source ++ "`"
  suggestion :=
    some ("import `" ++ banned.wrapper ++
      "` from the auth module; its handler receives the resolved identity")

/-- The violation of a call, given the imports so far. -/
def violation? (c : Conventions) (severity : Severity) (file : SourceFile) (aliases : AliasTable)
    (call : Node) : Option Violation := do
  if aliases.isEmpty then none
  else
    let bound ← call.calleeName?
    let canonical ← aliases.resolve? bound
    let banned ← c.banned.find? (·.raw == canonical)
    let callee ← call.callee?
    let source := (aliases.binding? bound).elim "" (·.source)
    return violation severity file callee banned source

/-- The state behind a visit. -/
def visit (c : Conventions) (severity : Severity) (file : SourceFile) (s : State) (v : Visit) :
    State :=
  match v.kind with
  | .importDeclaration =>
    match v.node.importDecl? with
    | some decl => { s with aliases := s.aliases.register decl }
    | none => s
  | .callExpression =>
    { s with found := s.found ++ (violation? c severity file s.aliases v.node).toList }
  | _ => s

end IdentityLint.RawFactory
