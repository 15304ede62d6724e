import IdentityLint.Conventions
import IdentityLint.Violation

/-!
Configurations: which files to look at, what the rules go by, and settings for single rules.
-/

namespace IdentityLint

/-- Which files to look at. -/
structure DiscoveryConfig where
  /-- The directory or file to look at. -/
  root : Path
  /-- Patterns of files to leave out. -/
  exclude : List String
  /-- Are files to be left out that version control ignores? -/
  respectGitignore : Bool
  deriving Repr, DecidableEq

namespace DiscoveryConfig

/-- The current directory without installed packages and generated code. -/
def standard : DiscoveryConfig := ⟨⟨"."⟩, ["**/node_modules/**", "**/_generated/**"], true⟩

instance : Inhabited DiscoveryConfig := ⟨standard⟩

end DiscoveryConfig

/-- Settings for one rule. -/
structure RuleConfig where
  enabled : Option Bool
  severity : Option Severity
  deriving Repr, DecidableEq, Inhabited

/-- A configuration. -/
structure Config where
  discovery : DiscoveryConfig
  conventions : Conventions
  /-- Settings for rules, by name. -/
  rules : List (String × RuleConfig)
  deriving Repr, DecidableEq

namespace Config

/-- The configuration of a project that says nothing else. -/
def standard : Config := ⟨.standard, .standard, []⟩

instance : Inhabited Config := ⟨standard⟩

/-- Is a rule enabled?  It is unless its settings say otherwise. -/
def isEnabled (c : Config) (rule : String) : Bool :=
  match c.rules.lookup rule with
  | some r => r.enabled.getD true
  | none => true

/-- The severity that the settings of a rule ask for. -/
def severity? (c : Config) (rule : String) : Option Severity :=
  (c.rules.lookup rule).bind (·.severity)

end Config

end IdentityLint
