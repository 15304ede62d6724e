import IdentityLint.Config
import IdentityLint.Report.Encoding

/-!
Configurations as structured values.

Every setting may be left out and then has its standard value, except that the entry of a banned
factory has to be complete.  Settings that are not known are skipped over.
-/

namespace IdentityLint

open Value

namespace BannedFactory

/-- The entry of a factory as a value. -/
def toValue (b : BannedFactory) : Value :=
  .record [("raw", .text b.raw), ("wrapper", .text b.wrapper), ("message_id", .text b.messageId)]

/-- The entry of a factory that a value describes. -/
def ofValue? (form : ListForm) (v : Value) : Option BannedFactory := do
  match ← v.fieldsOf? form ["raw", "wrapper", "message_id"] with
  | (_, [some raw, some wrapper, some messageId]) =>
    return ⟨← raw.text?, ← wrapper.text?, ← messageId.text?⟩
  | _ => none

end BannedFactory

namespace Conventions

/-- Conventions as a value. -/
def toValue (c : Conventions) : Value :=
  .record
    [("exempt_file", .text c.exemptFile),
      ("banned", .list (c.banned.map BannedFactory.toValue)),
      ("server_modules", .list (c.serverModules.map .text)),
      ("wrapper_modules", .list (c.wrapperModules.map .text)),
      ("wrapper_module_substring", .text c.wrapperModuleFragment),
      ("forbidden_call", .list (c.forbiddenCall.map .text))]

/-- The conventions that a value describes. -/
def ofValue? (form : ListForm) (v : Value) : Option Conventions := do
  let names := ["exempt_file", "banned", "server_modules", "wrapper_modules",
    "wrapper_module_substring", "forbidden_call"]
  let texts := listOf? text?
  match ← v.fieldsOf? form names with
  | (_, [exemptFile, banned, serverModules, wrapperModules, wrapperModuleFragment,
      forbiddenCall]) =>
    return {
      exemptFile := ← orDefault standard.exemptFile text? exemptFile
      banned := ← orDefault standard.banned (listOf? (BannedFactory.ofValue? form)) banned
      serverModules := ← orDefault standard.serverModules texts serverModules
      wrapperModules := ← orDefault standard.wrapperModules texts wrapperModules
      wrapperModuleFragment :=
        ← orDefault standard.wrapperModuleFragment text? wrapperModuleFragment
      forbiddenCall := ← orDefault standard.forbiddenCall texts forbiddenCall }
  | _ => none

end Conventions

namespace DiscoveryConfig

/-- The choice of files as a value. -/
def toValue (d : DiscoveryConfig) : Value :=
  .record
    [("root", .text d.root.text), ("exclude", .list (d.exclude.map .text)),
      ("respect_gitignore", .bool d.respectGitignore)]

/-- The choice of files that a value describes. -/
def ofValue? (form : ListForm) (v : Value) : Option DiscoveryConfig := do
  match ← v.fieldsOf? form ["root", "exclude", "respect_gitignore"] with
  | (_, [root, exclude, respectGitignore]) =>
    return {
      root := ← orDefault standard.root (fun v => v.text?.map Path.mk) root
      exclude := ← orDefault standard.exclude (listOf? text?) exclude
      respectGitignore := ← orDefault standard.respectGitignore bool? respectGitignore }
  | _ => none

end DiscoveryConfig

namespace RuleConfig

/-- The settings of a rule as a value. -/
def toValue (r : RuleConfig) : Value :=
  .record
    [("enabled", match r.enabled with
        | some b => .bool b
        | none => .null),
      ("severity", match r.severity with
        | some s => .text s.name
        | none => .null)]

/-- The settings of a rule that a value describes. -/
def ofValue? (form : ListForm) (v : Value) : Option RuleConfig := do
  match ← v.fieldsOf? form ["enabled", "severity"] with
  | (_, [enabled, severity]) =>
    return {
      enabled := ← orDefault none (optional? bool?) enabled
      severity := ← orDefault none (optional? Severity.ofValue?) severity }
  | _ => none

end RuleConfig

namespace Config

/-- A configuration as a value. -/
def toValue (c : Config) : Value :=
  .record
    [("analyzer", c.discovery.toValue), ("conventions", c.conventions.toValue),
      ("rules", .record (c.rules.map fun r => (r.1, r.2.toValue)))]

/-- The settings of rules, by name. -/
def rulesOfValue? (form : ListForm) : Value → Option (List (String × RuleConfig))
  | .record fields => fields.mapM fun f => (RuleConfig.ofValue? form f.2).map (f.1, ·)
  | _ => none

/-- The configuration that a value describes. -/
def ofValue? (form : ListForm) (v : Value) : Option Config := do
  match ← v.fieldsOf? form ["analyzer", "conventions", "rules"] with
  | (_, [discovery, conventions, rules]) =>
    return {
      discovery := ← orDefault .standard (DiscoveryConfig.ofValue? form) discovery
      conventions := ← orDefault .standard (Conventions.ofValue? form) conventions
      rules := ← orDefault [] (rulesOfValue? form) rules }
  | _ => none

end Config

end IdentityLint
