import IdentityLint.Violation

/-!
Reports: the violations of a run and the number of files it checked.
-/

namespace IdentityLint

/-- The outcome of a run. -/
structure Report where
  violations : List Violation
  filesChecked : Nat
  deriving Repr, DecidableEq, Inhabited

namespace Report

/-- The report of a run that checked nothing. -/
def empty : Report := ⟨[], 0⟩

/-- The report with one more violation. -/
def push (r : Report) (v : Violation) : Report := { r with violations := r.violations ++ [v] }

/-- The reports of two runs taken together. -/
def append (r s : Report) : Report :=
  ⟨r.violations ++ s.violations, r.filesChecked + s.filesChecked⟩

/-- The violations of a severity. -/
def bySeverity (r : Report) (s : Severity) : List Violation :=
  r.violations.filter (·.severity = s)

/-- The number of violations of a severity. -/
def count (r : Report) (s : Severity) : Nat := r.violations.countP (·.severity = s)

/-- Is there a violation at least as serious as a threshold? -/
def hasAtLeast (r : Report) (threshold : Severity) : Bool :=
  r.violations.any (·.severity.atLeast threshold)

/-- Is there an error? -/
def hasErrors (r : Report) : Bool := r.hasAtLeast .error

/-- The violations in the order of their places; those at equal places keep their order. -/
def sorted (r : Report) : Report :=
  { r with
    violations := r.violations.mergeSort fun v w => (v.location.compare w.location).isLE }

/-- The closing line of a report. -/
def summary (r : Report) : String :=
  "Found " ++ toString (r.count .error) ++ " error(s), " ++ toString (r.count .warning) ++
    " warning(s), " ++ toString (r.count .info) ++ " info(s) in " ++ toString r.filesChecked ++
    " file(s)"

/-- The report as plain text: a paragraph for each violation, and the closing line. -/
def render (r : Report) : String :=
  String.join (r.violations.map fun v => v.paragraph ++ "\n") ++ r.summary ++ "\n"

end Report

end IdentityLint
