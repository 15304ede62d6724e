import IdentityLint.Rule.IdentityLookup
import IdentityLint.Rule.RawFactory

/-!
Rules.

A rule has a kind, the conventions it goes by, and the severity of its violations.  The two kinds
below are the only ones: an analyzer can be given other conventions and severities, but no rule of
another kind.  Rules of both kinds report violations at nodes of the file only, so that the offset,
the line and the column of a violation belong together.
-/

namespace IdentityLint

open Syntax

/-- The kinds of rules. -/
inductive RuleKind where
  | rawFactory
  | identityLookup
  deriving Repr, DecidableEq, Inhabited

namespace RuleKind

/-- All kinds, in the order of their codes. -/
def all : List RuleKind := [rawFactory, identityLookup]

/-- The name of the rules of a kind. -/
def name : RuleKind → String
  | rawFactory => RawFactory.name
  | identityLookup => IdentityLookup.name

/-- The code of the rules of a kind. -/
def code : RuleKind → String
  | rawFactory => RawFactory.code
  | identityLookup => IdentityLookup.code

/-- What the rules of a kind are for. -/
def description : RuleKind → String
  | rawFactory => RawFactory.description
  | identityLookup => IdentityLookup.description

/-- The kinds of nodes that the rules of a kind look at. -/
def interests : RuleKind → List NodeKind
  | rawFactory => [.importDeclaration, .callExpression]
  | identityLookup => [.importDeclaration, .callExpression]

/-- Is a key the name or the code of a kind, in letters of any case and with blanks around? -/
def isCalled (k : RuleKind) (key : String) : Bool :=
  let key := Text.trim key.toList
  Text.sameLetters key k.name.toList || Text.sameLetters key k.code.toList

/-- The kind with a given name or code. -/
def ofKey? (key : String) : Option RuleKind := all.find? (·.isCalled key)

end RuleKind

/-- A rule. -/
structure Rule where
  kind : RuleKind
  conventions : Conventions
  /-- How serious a violation is, unless the configuration says otherwise. -/
  severity : Severity
  deriving Repr, DecidableEq, Inhabited

namespace Rule

/-- The rule of a kind, with violations that are errors. -/
def new (kind : RuleKind) (conventions : Conventions) : Rule := ⟨kind, conventions, .error⟩

/-- All rules for some conventions. -/
def all (conventions : Conventions) : List Rule := RuleKind.all.map (new · conventions)

/-- The rule with a given name or code. -/
def ofKey? (key : String) (conventions : Conventions) : Option Rule :=
  (RuleKind.ofKey? key).map (new · conventions)

/-- The name of the rule. -/
def name (r : Rule) : String := r.kind.name

/-- The code of the rule. -/
def code (r : Rule) : String := r.kind.code

/-- The kinds of nodes that the rule looks at. -/
def interests (r : Rule) : List NodeKind := r.kind.interests

/-- Must a directive that allows the rule give a reason?  It must if the rule reports errors. -/
def requiresReason (r : Rule) : Bool := r.severity == .error

/-- Does the rule not apply to a file at all? -/
def exempts (r : Rule) (file : SourceFile) : Bool :=
  file.path.endsWith r.conventions.exemptFile

end Rule

end IdentityLint
