import IdentityLint.Cli.Command
import IdentityLint.Proofs.JsonReading
import Mathlib.Algebra.Group.Nat.Defs

/-!
# Reading reports back

A report in JSON says all there is in it: read as a value and decoded, the text gives the report
again.  Writing and reading treat the two optional parts of a violation differently (the
identifier of the message is left out if there is none, the advice is then a null), and the
numbers of violations by severity stand beside the fields that are decoded.

Main statement: `reportText_json_reads_back`, which also ties these numbers to the violations and
to the exit status of the check that prints the report.
-/

namespace IdentityLint

open Value

/-! ## Numbers that can be read -/

/-- The numbers of a place fit into 64 bits. -/
structure Location.Fits (l : Location) : Prop where
  line : l.line < 2 ^ 64
  column : l.column < 2 ^ 64
  offset : l.offset < 2 ^ 64
  length : l.length < 2 ^ 64

/-- All numbers of a report fit into 64 bits. -/
structure Report.Fits (r : Report) : Prop where
  location : ∀ v ∈ r.violations, v.location.Fits
  filesChecked : r.filesChecked < 2 ^ 64

lemma Value.natural?_integer {n : Nat} (h : n < 2 ^ 64) : natural? (.integer n) = some n := by
  rw [natural?, if_pos (by omega)]
  rfl

/-! ## Decoding what was encoded -/

/-- A list is decoded if its items are. -/
lemma Value.listOf?_map {α : Type} {encode : α → Value} {decode : Value → Option α}
    {xs : List α} (h : ∀ x ∈ xs, decode (encode x) = some x) :
    listOf? decode (.list (xs.map encode)) = some xs := by
  rw [listOf?]
  induction xs with
  | nil => rfl
  | cons x xs ih =>
    have hxs := ih fun y hy => h y (by simp [hy])
    simp [List.mapM_cons, h x (by simp), hxs]

lemma Severity.ofValue?_name (s : Severity) : ofValue? (.text s.name) = some s := by
  cases s <;> rfl

lemma Location.ofValue?_toValue {l : Location} (h : l.Fits) : ofValue? l.toValue = some l := by
  simp [ofValue?, toValue, fieldsOf?, List.lookup_cons, text?, natural?_integer h.line,
    natural?_integer h.column, natural?_integer h.offset, natural?_integer h.length]

lemma optional?_suggestionToValue (s : Option String) :
    optional? suggestionOfValue? (suggestionToValue s) = some s := by
  cases s <;> rfl

lemma Violation.ofValue?_toValue {v : Violation} (h : v.location.Fits) :
    ofValue? v.toValue = some v := by
  have hid : ∀ i, optional? text? (.text i) = some (some i) := fun _ => rfl
  obtain ⟨code, rule, messageId, severity, location, message, suggestion⟩ := v
  -- the identifier of the message has a field of its own only if there is one
  cases messageId <;>
    simp [ofValue?, toValue, fieldsOf?, List.lookup_cons, text?, orDefault, Severity.ofValue?_name,
      Location.ofValue?_toValue h, optional?_suggestionToValue, hid]

/-- The numbers by severity are passed over in decoding. -/
lemma Report.ofValue?_toValueWithCounts {r : Report} (h : r.Fits) :
    ofValue? r.toValueWithCounts = some r := by
  have hv : listOf? Violation.ofValue? (.list (r.violations.map Violation.toValue)) =
      some r.violations :=
    listOf?_map fun v hv => Violation.ofValue?_toValue (h.location v hv)
  simp [ofValue?, toValueWithCounts, fields, fieldsOf?, List.lookup_cons, hv,
    natural?_integer h.filesChecked]

/-! ## The text of a report -/

section Exact

open Json

attribute [local simp] Exact.null Exact.integer Exact.text

lemma Location.exact_toValue (l : Location) : Exact l.toValue :=
  .record (by simp)

lemma exact_suggestionToValue (s : Option String) : Exact (suggestionToValue s) := by
  cases s with
  | none => exact .null
  | some s => exact .record (by simp)

lemma Violation.exact_toValue (v : Violation) : Exact v.toValue := by
  apply Exact.record
  cases v.messageId <;>
    simp [v.location.exact_toValue, exact_suggestionToValue v.suggestion]

/-- No value in a report is a fraction or a moment. -/
lemma Report.exact_toValueWithCounts (r : Report) : Exact r.toValueWithCounts := by
  have hv : Exact (.list (r.violations.map Violation.toValue)) :=
    .list (by simp [Violation.exact_toValue])
  exact .record (by simp [fields, hv])

end Exact

/-! ## Counting by severity -/

lemma Report.count_eq_length (r : Report) (s : Severity) :
    r.count s = (r.bySeverity s).length :=
  List.countP_eq_length_filter

/-- Every violation has one of the three severities. -/
lemma Report.length_bySeverity_add (r : Report) :
    (r.bySeverity .error).length + (r.bySeverity .warning).length +
      (r.bySeverity .info).length = r.violations.length := by
  unfold bySeverity
  induction r.violations with
  | nil => rfl
  | cons v vs ih =>
    simp only [List.filter_cons]
    cases v.severity <;> simp <;> omega

/-- There are errors exactly if their number is not zero. -/
lemma Report.hasErrors_iff (r : Report) :
    r.hasErrors = true ↔ (r.bySeverity .error).length ≠ 0 := by
  have hs : ∀ s : Severity, s.atLeast .error = true ↔ s = .error := by
    intro s
    cases s <;> decide
  simp [hasErrors, hasAtLeast, bySeverity, hs]

namespace Cli

/-- The check gets as far as printing a report. -/
def Reports (i : Invocation) (explicit : Option Path) (o : CheckOptions) (r : Report) : Prop :=
  ∃ config, loadConfig i (sourceFor i explicit o.path) = .ok config ∧
    checkReport i o config = .ok r

/-- What a check with a report brings about. -/
lemma Reports.check_eq {i : Invocation} {explicit : Option Path} {o : CheckOptions} {r : Report}
    (h : Reports i explicit o r) :
    check i explicit o =
      ⟨if r.hasErrors then 1 else 0, reportText o.format r, none, filterWarnings o.rules, []⟩ := by
  obtain ⟨config, hconfig, hreport⟩ := h
  simp only [check, hconfig, hreport]

/-- The JSON text of a report whose numbers fit into 64 bits is read back as a value, and the
value as the report.  Beside the report, the value holds the numbers of violations of each
severity, which together are all of them; the number of errors is not zero exactly if the check
that prints the report exits with status one. -/
theorem reportText_json_reads_back {r : Report} (hr : r.Fits) :
    ∃ doc, Json.read? (reportText .json r) = some doc ∧ Report.ofValue? doc = some r ∧
      doc.field? "errors" = some (.integer (r.bySeverity .error).length) ∧
      doc.field? "warnings" = some (.integer (r.bySeverity .warning).length) ∧
      doc.field? "infos" = some (.integer (r.bySeverity .info).length) ∧
      (r.bySeverity .error).length + (r.bySeverity .warning).length +
        (r.bySeverity .info).length = r.violations.length ∧
      ∀ i explicit o, Reports i explicit o r →
        (check i explicit o).output = reportText o.format r ∧
          ((check i explicit o).status = 1 ↔ (r.bySeverity .error).length ≠ 0) := by
  refine ⟨r.toValueWithCounts, r.exact_toValueWithCounts.read?_render,
    Report.ofValue?_toValueWithCounts hr, ?_, ?_, ?_, r.length_bySeverity_add, ?_⟩
  · rw [← r.count_eq_length]; rfl
  · rw [← r.count_eq_length]; rfl
  · rw [← r.count_eq_length]; rfl
  · intro i explicit o h
    rw [h.check_eq, ← r.hasErrors_iff]
    simp

/-- Two violations of which one has neither an identifier nor advice but all kinds of escapes and
the largest number, and the other comes from a check of a file with quotes and a tab in its name. -/
theorem reportText_json_reads_back_odd_names :
    let odd : Violation :=
      ⟨"\x01\\", "", none, .info, ⟨⟨"é\n\"/"⟩, 0, 0xFFFFFFFFFFFFFFFF, 7, 0⟩, "\x0c\x7b\x7d", none⟩
    let raw : Violation :=
      ⟨"AUTH001", "no-raw-convex-function", some "useAuthenticatedQuery", .error,
        ⟨⟨"a \"b\"\t.ts"⟩, 1, 38, 37, 5⟩,
        "Use `authenticatedQuery` instead of `query` from `_generated/server`",
        some ("import `authenticatedQuery` from the auth module; its handler receives the " ++
          "resolved identity")⟩
    let text := "import\x7bquery\x7dfrom\"_generated/server\";query()"
    let i : Invocation := ⟨[], ⟨"/"⟩, [], .directory [("a \"b\"\t.ts", .file text.toUTF8)]⟩
    let o : CheckOptions := ⟨⟨"."⟩, .json, none, []⟩
    (Report.Fits ⟨[odd, raw], 2⟩ ∧
      ∃ doc, Json.read? (reportText .json ⟨[odd, raw], 2⟩) = some doc ∧
        Report.ofValue? doc = some ⟨[odd, raw], 2⟩ ∧ doc.field? "infos" = some (.integer 1)) ∧
    (Report.Fits ⟨[raw], 1⟩ ∧ Reports i none o ⟨[raw], 1⟩ ∧
      (∃ doc, Json.read? (check i none o).output = some doc ∧
        doc.field? "errors" = some (.integer 1)) ∧
      (check i none o).status = 1) := by
  intro odd raw text i o
  have hraw : raw.location.Fits := ⟨by decide, by decide, by decide, by decide⟩
  have hodd : odd.location.Fits := ⟨by decide, by decide, by decide, by decide⟩
  have hboth : Report.Fits ⟨[odd, raw], 2⟩ := ⟨by simp [hraw, hodd], by decide⟩
  have hone : Report.Fits ⟨[raw], 1⟩ := ⟨by simp [hraw], by decide⟩
  have hrun : Reports i none o ⟨[raw], 1⟩ :=
    ⟨.standard, by decide +kernel, by decide +kernel⟩
  obtain ⟨doc, hread, hdoc, -, -, hinfos, -, -⟩ := reportText_json_reads_back hboth
  obtain ⟨doc', hread', -, herrors, -, -, -, hcheck⟩ := reportText_json_reads_back hone
  obtain ⟨houtput, hstatus⟩ := hcheck i none o hrun
  refine ⟨⟨hboth, doc, hread, hdoc, hinfos⟩, hone, hrun, ⟨doc', ?_, herrors⟩, ?_⟩
  · rw [houtput]
    exact hread'
  · exact hstatus.2 (by decide)

end Cli

end IdentityLint
