import IdentityLint.Aliases
import IdentityLint.Conventions
import IdentityLint.Scope
import IdentityLint.Syntax.View

/-!
Authenticated handlers.

A handler is the function literal that is the property `handler` of the first argument of a
wrapper's call.  `HandlerScopes` follows the wrappers through the imports of a file and collects
the handlers of the calls it is shown.  In a walk a call is shown before the nodes inside it, so
a handler is known when its body is reached.
-/

namespace IdentityLint

open Syntax

/-- The wrappers imported and the handlers met so far. -/
structure HandlerScopes where
  aliases : AliasTable
  handlers : List FunctionId
  deriving Repr, DecidableEq, Inhabited

namespace HandlerScopes

/-- The property under which a wrapper takes its handler. -/
def handlerProperty : String := "handler"

/-- The modules from which wrappers are imported: those of the wrappers, and the server's, which
may export them again. -/
def wrapperModules (c : Conventions) : ModuleMatcher :=
  ((ModuleMatcher.empty.exactly c.wrapperModules).containing [c.wrapperModuleFragment]).containing
    c.serverModules

/-- The state at the beginning of a file. -/
def new (c : Conventions) : HandlerScopes := ⟨.new (wrapperModules c) c.wrapperNames, []⟩

/-- The state behind an import statement. -/
def observeImport (h : HandlerScopes) (n : Node) : HandlerScopes :=
  match n.importDecl? with
  | some decl => { h with aliases := h.aliases.register decl }
  | none => h

/-- The handler of a call, if the call is one of a wrapper and gives its handler as a function
literal. -/
def handlerOf? (h : HandlerScopes) (call : Node) : Option FunctionId := do
  let name ← call.calleeName?
  let _ ← h.aliases.resolve? name
  let definition ← call.firstArgument?
  let handler ← definition.property? handlerProperty
  if handler.isFunction then some handler.id else none

/-- The state with a further handler. -/
def insert (h : HandlerScopes) (f : FunctionId) : HandlerScopes :=
  { h with handlers := f :: h.handlers }

/-- The state behind a call, and the handler of the call. -/
def observeCall (h : HandlerScopes) (call : Node) : HandlerScopes × Option FunctionId :=
  match h.handlerOf? call with
  | some f => (h.insert f, some f)
  | none => (h, none)

/-- Is a function a handler? -/
def isHandler (h : HandlerScopes) (f : FunctionId) : Bool := h.handlers.contains f

/-- The innermost handler around the current place, at any distance. -/
def enclosing? (h : HandlerScopes) (scopes : ScopeChain) : Option FunctionId :=
  scopes.ancestors.find? h.isHandler

/-- Has no handler been met? -/
def isEmpty (h : HandlerScopes) : Bool := h.handlers.isEmpty

end HandlerScopes

end IdentityLint
