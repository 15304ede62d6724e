import IdentityLint.Directive
import IdentityLint.Rule

/-!
Suppression of violations by allow directives.

A violation on a line that a directive allows for its rule is dropped.  Where the rule requires a
reason and the directive gives none, a warning about the missing reason takes its place.
-/

namespace IdentityLint

/-- The warning that takes the place of a violation that is allowed without a reason. -/
def Rule.missingReason (r : Rule) (v : Violation) : Violation where
  code := r.code
  rule := r.name
  messageId := none
  severity := .warning
  location := v.location
  message := "Allow directive for '" ++ r.name ++ "' is missing required reason"
  suggestion := some "Add reason=\"...\" to explain why this exception is necessary"

/-- What is left of a violation. -/
def Rule.judge (r : Rule) (ds : Directives) (v : Violation) : Option Violation :=
  match ds.check v.location.line r.name with
  | .denied => some v
  | .allowed (some _) => none
  | .allowed none => if r.requiresReason then some (r.missingReason v) else none

/-- What is left of the violations of a rule. -/
def Rule.suppress (r : Rule) (ds : Directives) (vs : List Violation) : List Violation :=
  if ds.isEmpty then vs else vs.filterMap (r.judge ds)

end IdentityLint
