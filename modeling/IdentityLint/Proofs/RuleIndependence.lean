import IdentityLint.Proofs.StableSort
import IdentityLint.Proofs.VisitationOrder

/-!
# Rules do not influence each other

All rules of an analyzer share one walk over a file, one scan for directives and one sorting at the
end.  What a rule contributes to the output is nevertheless its own affair: `Analyzer.share` does not
mention the other rules.  So an analyzer reports what analyzers with a single rule each report, put
together in the order of the rules and sorted once more.
-/

namespace IdentityLint.Analyzer

variable (a : Analyzer) (file : SourceFile)

/-- Does an analyzer use a rule for a file?  The rule has to be enabled and to apply to the file. -/
def uses (r : Rule) : Bool := !r.exempts file && a.config.isEnabled r.name

/-- What a rule contributes to the output for a file: what is left of its findings, or nothing if
it is not used. -/
def share (r : Rule) : List Violation :=
  if a.uses file r then (r.findings file).filterMap (a.outcome file.content r) else []

lemma flatMap_filter {α β : Type} (p : α → Bool) (f : α → List β) (l : List α) :
    (l.filter p).flatMap f = l.flatMap fun x => if p x then f x else [] := by
  induction l with
  | nil => rfl
  | cons x l ih =>
    rw [List.filter_cons, List.flatMap_cons, ← ih]
    split <;> rfl

/-- The output is made of the shares of the rules. -/
lemma checkFile_eq_shares :
    a.checkFile file = (a.rules.flatMap (a.share file)).mergeSort precedes := by
  rw [checkFile_eq, enabledRules, List.filter_filter, flatMap_filter]
  rfl

/-- An analyzer with a single rule reports the share of the rule. -/
lemma checkFile_single (r : Rule) :
    ({ a with rules := [r] } : Analyzer).checkFile file = (a.share file r).mergeSort precedes := by
  have hshare : ({ a with rules := [r] } : Analyzer).share file r = a.share file r := rfl
  rw [checkFile_eq_shares, List.flatMap_singleton, hshare]

lemma checkFile_eq_singles :
    a.checkFile file =
      (a.rules.flatMap fun r =>
        ({ a with rules := [r] } : Analyzer).checkFile file).mergeSort precedes := by
  simp only [checkFile_single]
  rw [mergeSort_flatMap_mergeSort precedes_trans precedes_total, checkFile_eq_shares]

/-- What an analyzer reports about a file is the stable sort of what its rules report if each of
them is given an analyzer of its own, and nothing else is.  Rules may be disabled, may not apply to
the file, and may occur several times. -/
theorem stableSort_singles_iff (a : Analyzer) (path : Path) (content : String)
    (vs : List Violation) :
    StableSort precedes
        (a.rules.flatMap fun r => ({ a with rules := [r] } : Analyzer).checkSource path content) vs ↔
      vs = a.checkSource path content := by
  rw [stableSort_iff precedes_trans precedes_total, checkSource, checkFile_eq_singles]
  rfl

end IdentityLint.Analyzer
