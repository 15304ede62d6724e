import IdentityLint.Text.Quoted

/-!
Conventions: the names, module paths and files that the rules go by.

There is no pattern language.  Module paths are compared for equality or containment, files by
the end of their paths, names by equality.
-/

namespace IdentityLint

/-- A raw factory and the wrapper to be used in its place. -/
structure BannedFactory where
  /-- The factory's name as the server module exports it. -/
  raw : String
  wrapper : String
  /-- The identifier of the message about calls of the factory. -/
  messageId : String
  deriving Repr, DecidableEq, Inhabited

/-- What the rules go by. -/
structure Conventions where
  /-- The end of the path of the file to which the rules do not apply. -/
  exemptFile : String
  banned : List BannedFactory
  /-- A module whose path contains one of these exports the factories. -/
  serverModules : List String
  /-- A module with one of these paths exports the wrappers. -/
  wrapperModules : List String
  /-- A module whose path contains this exports the wrappers, too. -/
  wrapperModuleFragment : String
  /-- The names of the dotted chain that may not be called in a handler. -/
  forbiddenCall : List String
  deriving Repr, DecidableEq

namespace Conventions

/-- The conventions of a project that says nothing else. -/
def standard : Conventions where
  exemptFile := "convex/auth.ts"
  banned :=
    [⟨"query", "authenticatedQuery", "useAuthenticatedQuery"⟩,
      ⟨"mutation", "authenticatedMutation", "useAuthenticatedMutation"⟩]
  serverModules := ["_generated/server"]
  wrapperModules := ["./auth", "../auth"]
  wrapperModuleFragment := "/auth"
  forbiddenCall := ["ctx", "auth", "getUserIdentity"]

instance : Inhabited Conventions := ⟨standard⟩

/-- The names of the wrappers. -/
def wrapperNames (c : Conventions) : List String := c.banned.map (·.wrapper)

/-- Why conventions cannot be used. -/
inductive Error where
  /-- The forbidden call does not have three non-empty names. -/
  | forbiddenCall (names : List String)
  /-- A name is missing from the entry of a factory. -/
  | banned (index : Nat)
  deriving Repr, DecidableEq

/-- The wording of an error. -/
def Error.message : Error → String
  | .forbiddenCall names =>
    "Invalid config: conventions.forbidden_call must have three non-empty segments, got " ++
      Text.Quoted.list names
  | .banned i =>
    "Invalid config: conventions.banned[" ++ toString i ++
      "]: raw, wrapper and message_id are required"

/-- Is a name missing from the entry of a factory? -/
def isIncomplete (b : BannedFactory) : Bool :=
  b.raw.isEmpty || b.wrapper.isEmpty || b.messageId.isEmpty

/-- The first reason why conventions cannot be used. -/
def error? (c : Conventions) : Option Error :=
  if c.forbiddenCall.length ≠ 3 || c.forbiddenCall.any String.isEmpty then
    some (.forbiddenCall c.forbiddenCall)
  else (c.banned.findIdx? isIncomplete).map .banned

end Conventions

end IdentityLint
