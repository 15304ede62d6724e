import IdentityLint.Proofs.FilePasses
import IdentityLint.Proofs.ReportReading

/-!
# Complaints about missing reasons

A directive that allows a rule without giving a required reason is complained about in place of the
finding.  In the output these complaints are the violations without an identifier of a message
(`Analyzer.complains_iff`).

A complaint is made as a warning, but the severity that the settings of the rule ask for is put on
everything the rule reports, and on complaints, too.  So a complaint is a warning only if the
settings ask for nothing else; if they ask for errors, it is an error, and the program exits with
status one for it.
-/

namespace IdentityLint

open Syntax

section Except

variable {α β ε ε' : Type}

lemma exists_of_bind_eq_ok {x : Except ε α} {f : α → Except ε β} {b : β}
    (h : (x >>= f) = .ok b) : ∃ a, x = .ok a ∧ f a = .ok b := by
  cases x with
  | error e => cases h
  | ok a => exact ⟨a, rfl, h⟩

lemma eq_ok_of_mapError {x : Except ε α} {f : ε → ε'} {a : α} (h : x.mapError f = .ok a) :
    x = .ok a := by
  cases x with
  | error e => cases h
  | ok b => exact congrArg _ (Except.ok.inj h)

end Except

namespace Rule

variable {r : Rule} {file : SourceFile} {content : String} {v w : Violation}

/-- All that a rule finds has an identifier of its message. -/
lemma messageId_of_mem_findings (h : v ∈ r.findings file) : v.messageId ≠ none := by
  rw [findings, found_behind _ _ file.distinctFunctions_tree] at h
  obtain ⟨p, -, h⟩ := List.mem_filterMap.1 h
  rw [finding?] at h
  split at h
  · obtain ⟨callee, name, b, banned, -, -, -, -, rfl⟩ :=
      (RawFactory.violation?_eq_some_iff _ _ _).1 h
    exact Option.some_ne_none _
  · obtain ⟨-, h⟩ := Option.ite_none_right_eq_some.1 h
    obtain rfl := Option.some.inj h
    exact Option.some_ne_none _

/-- The directive that decides about a violation lacks a reason that the rule requires. -/
def LacksReason (r : Rule) (content : String) (v : Violation) : Prop :=
  r.requiresReason = true ∧
    ∃ d, r.DecidedBy (Directives.onLine? content v.location.line)
      (Directives.onLine? content (v.location.line - 1)) d ∧ d.reason = none

/-- What is left of a violation is up to the directive that decides about it. -/
lemma settle_of_decidedBy {own above : Option Directive} {d : Directive}
    (h : r.DecidedBy own above d) (v : Violation) :
    r.settle own above v =
      if d.reason = none ∧ r.requiresReason = true then some (r.missingReason v) else none := by
  cases h with
  | own hown hd => rw [settle, filter_covers_eq_some_iff.2 ⟨hown, hd⟩, Option.some_or]
  | above hown habove hd =>
    rw [settle, filter_covers_eq_none_iff.2 hown, filter_covers_eq_some_iff.2 ⟨habove, hd⟩,
      Option.none_or]

end Rule

namespace Analyzer

variable (a : Analyzer) {path : Path} {content : String} {w : Violation}

/-- A violation in the output stands for a directive without a required reason: one that decides
about something that an active rule finds. -/
def Complains (path : Path) (content : String) (w : Violation) : Prop :=
  let file := SourceFile.new path content a.root
  ∃ r ∈ a.activeRules file, ∃ v ∈ r.findings file,
    r.LacksReason content v ∧ w = a.graded r (r.missingReason v)

lemma mem_checkSource_iff :
    w ∈ a.checkSource path content ↔
      let file := SourceFile.new path content a.root
      ∃ r ∈ a.activeRules file, ∃ v ∈ r.findings file, a.outcome content r v = some w := by
  rw [checkSource, checkFile_eq, List.mem_mergeSort, List.mem_flatMap]
  simp only [List.mem_filterMap]
  rfl

lemma outcome_of_lacksReason {r : Rule} {v : Violation} (h : r.LacksReason content v) :
    a.outcome content r v = some (a.graded r (r.missingReason v)) := by
  obtain ⟨hrequired, d, hd, hreason⟩ := h
  rw [outcome, Rule.settle_of_decidedBy hd, if_pos ⟨hreason, hrequired⟩, Option.map_some]

/-- Where an identifier of the message gets lost, a reason was missing. -/
lemma lacksReason_of_outcome {r : Rule} {v : Violation} (h : a.outcome content r v = some w)
    (hv : v.messageId ≠ none) (hw : w.messageId = none) : r.LacksReason content v := by
  obtain ⟨u, hu, rfl⟩ := Option.map_eq_some_iff.1 h
  have hsettled := r.settled_settle (Directives.onLine? content v.location.line)
    (Directives.onLine? content (v.location.line - 1)) v
  rw [hu] at hsettled
  cases hsettled with
  | kept => exact absurd hw hv
  | replaced hd hreason hrequired => exact ⟨hrequired, _, hd, hreason⟩

/-- The complaints are the violations without an identifier of a message. -/
lemma complains_iff :
    a.Complains path content w ↔ w ∈ a.checkSource path content ∧ w.messageId = none := by
  rw [mem_checkSource_iff]
  constructor
  · rintro ⟨r, hr, v, hv, hlacks, rfl⟩
    exact ⟨⟨r, hr, v, hv, a.outcome_of_lacksReason hlacks⟩, rfl⟩
  · rintro ⟨⟨r, hr, v, hv, houtcome⟩, hw⟩
    have hlacks := a.lacksReason_of_outcome houtcome (Rule.messageId_of_mem_findings hv) hw
    refine ⟨r, hr, v, hv, hlacks, ?_⟩
    rw [a.outcome_of_lacksReason hlacks] at houtcome
    exact (Option.some.inj houtcome).symm

lemma severity_of_complains (h : a.Complains path content w) :
    w.severity = (a.config.severity? w.rule).getD .warning := by
  obtain ⟨r, -, v, -, -, rfl⟩ := h
  rfl

/-! ### Reports -/

/-- All that is reported was found in some file. -/
lemma exists_checkSource_of_analyze {fs : FileTree} {report : Report}
    (h : a.analyze fs = .ok report) (hw : w ∈ report.violations) :
    ∃ path content, w ∈ a.checkSource path content := by
  obtain ⟨f, -, -, -, -, text, -, hmem⟩ := (a.mem_analyze_iff h).1 hw
  exact ⟨f.1, text, hmem⟩

/-- Where there is a single source with a single violation, nothing else is reported. -/
lemma analyze_of_single {fs : FileTree} {bytes : ByteArray}
    (hsources : a.sources? fs = some [(path, bytes)])
    (htext : String.fromUTF8? bytes = some content)
    (hfound : a.checkSource path content = [w]) : a.analyze fs = .ok ⟨[w], 1⟩ := by
  have hholds : Holds (path, bytes) (path, content) := ⟨rfl, htext⟩
  have hreport : a.reportOf [(path, bytes)] = .ok ⟨[w], 1⟩ := by
    rw [a.reportOf_eq_ok (.cons hholds .nil), concatenation, List.flatMap_singleton, hfound]
    rfl
  rw [analyze, hsources]
  simp only [hreport]
  exact congrArg (fun vs => Except.ok (Report.mk vs 1)) (List.mergeSort_singleton w)

/-- A report has errors if a finding is one, or if there is a complaint about a rule whose settings
ask for errors. -/
def Errs (config : Config) (report : Report) : Prop :=
  (∃ w ∈ report.violations, w.messageId ≠ none ∧ w.severity = .error) ∨
    ∃ w ∈ report.violations, w.messageId = none ∧ config.severity? w.rule = some .error

lemma hasErrors_analyze {fs : FileTree} {report : Report} (h : a.analyze fs = .ok report) :
    report.hasErrors = true ↔ Errs a.config report := by
  have hcomplaint : ∀ w ∈ report.violations, w.messageId = none →
      (w.severity = .error ↔ a.config.severity? w.rule = some .error) := by
    intro w hw hnone
    obtain ⟨path, content, hmem⟩ := a.exists_checkSource_of_analyze h hw
    rw [a.severity_of_complains (a.complains_iff.2 ⟨hmem, hnone⟩)]
    cases a.config.severity? w.rule <;> simp
  have hany : report.hasErrors = true ↔ ∃ w ∈ report.violations, w.severity = .error := by
    rw [Report.hasErrors_iff, ne_eq, List.length_eq_zero_iff, Report.bySeverity,
      List.filter_eq_nil_iff]
    simp
  rw [hany, Errs]
  constructor
  · rintro ⟨w, hw, herror⟩
    by_cases hnone : w.messageId = none
    · exact .inr ⟨w, hw, hnone, (hcomplaint w hw hnone).1 herror⟩
    · exact .inl ⟨w, hw, hnone, herror⟩
  · rintro (⟨w, hw, -, herror⟩ | ⟨w, hw, hnone, hsetting⟩)
    · exact ⟨w, hw, herror⟩
    · exact ⟨w, hw, (hcomplaint w hw hnone).2 hsetting⟩

/-- An analyzer can be built if the conventions can be used and the patterns are spelled right. -/
lemma build_eq_ok_iff {cwd : Path} {settings : Settings} :
    build cwd settings = .ok a ↔
      settings.config.conventions.error? = none ∧
        ∃ exclude, patterns (settings.exclude ++ settings.config.discovery.exclude) = .ok exclude ∧
          ⟨let root := settings.root.getD settings.config.discovery.root
            if root.isAbsolute then root else cwd.join root,
            settings.rules, exclude, settings.config⟩ = a := by
  rw [build]
  cases settings.config.conventions.error? with
  | some e => simp
  | none =>
    cases patterns (settings.exclude ++ settings.config.discovery.exclude) with
    | error e => simp [bind, Except.bind]
    | ok exclude => simp [bind, Except.bind, pure, Except.pure]

lemma config_of_build {cwd : Path} {settings : Settings} (h : build cwd settings = .ok a) :
    a.config = settings.config := by
  obtain ⟨-, exclude, -, rfl⟩ := a.build_eq_ok_iff.1 h
  rfl

end Analyzer

namespace Cli

/-- A report under a configuration comes from an analyzer with this configuration. -/
lemma exists_analyze_of_checkReport {i : Invocation} {o : CheckOptions} {config : Config}
    {report : Report} (h : checkReport i o config = .ok report) :
    ∃ a : Analyzer, a.config = config ∧ a.analyze i.files = .ok report := by
  obtain ⟨a, hbuild, hreport⟩ := exists_of_bind_eq_ok h
  exact ⟨a, a.config_of_build (eq_ok_of_mapError hbuild), eq_ok_of_mapError hreport⟩

/-- A check at a relative path reports what an analyzer finds at this path. -/
lemma checkReport_of_analyze {i : Invocation} {o : CheckOptions} {config : Config}
    {exclude : List Glob.Pattern} {report : Report} (hpath : o.path.isAbsolute = false)
    (hconventions : config.conventions.error? = none)
    (hexclude : Analyzer.patterns (o.exclude ++ config.discovery.exclude) = .ok exclude)
    (hreport : Analyzer.analyze
      ⟨i.cwd.join o.path, rulesFor o.rules config.conventions, exclude, config⟩ i.files =
        .ok report) :
    checkReport i o config = .ok report := by
  rw [checkReport, Analyzer.build]
  simp only [hconventions, hexclude, Option.getD_some, hpath]
  exact congrArg (Except.mapError Error.analysis) hreport

/-- A check that gets as far as a report exits with status one exactly if the report errs. -/
lemma status_check_iff {i : Invocation} {explicit : Option Path} {o : CheckOptions}
    {config : Config} {report : Report}
    (hconfig : loadConfig i (sourceFor i explicit o.path) = .ok config)
    (hreport : checkReport i o config = .ok report) :
    (check i explicit o).status = 1 ↔ Analyzer.Errs config report := by
  obtain ⟨a, rfl, ha⟩ := exists_analyze_of_checkReport hreport
  have hreports : Reports i explicit o report := ⟨_, hconfig, hreport⟩
  rw [hreports.check_eq, ← a.hasErrors_analyze ha]
  simp

end Cli

namespace Analyzer

/-- A complaint about a missing reason has the severity that the settings of its rule ask for.  So
it is a warning exactly if they ask for no other severity; and a finding that is allowed without a
reason makes a report have errors, or the program exit with status one, exactly if they ask for
errors. -/
theorem severity_missing_reason (a : Analyzer) (path : Path) (content : String) (w : Violation) :
    (a.Complains path content w ↔ w ∈ a.checkSource path content ∧ w.messageId = none) ∧
      (a.Complains path content w →
        w.severity = (a.config.severity? w.rule).getD .warning ∧
          (w.severity = .warning ↔ ∀ s, a.config.severity? w.rule = some s → s = .warning)) ∧
      (∀ (fs : FileTree) (report : Report), a.analyze fs = .ok report →
        (report.hasErrors = true ↔ Errs a.config report)) ∧
      ∀ (i : Cli.Invocation) (explicit : Option Path) (o : Cli.CheckOptions) (report : Report),
        Cli.loadConfig i (Cli.sourceFor i explicit o.path) = .ok a.config →
          Cli.checkReport i o a.config = .ok report →
            ((Cli.check i explicit o).status = 1 ↔ Errs a.config report) := by
  refine ⟨a.complains_iff, fun h => ?_, fun _ _ => a.hasErrors_analyze,
    fun _ _ _ _ => Cli.status_check_iff⟩
  have hseverity := a.severity_of_complains h
  refine ⟨hseverity, ?_⟩
  rw [hseverity]
  cases a.config.severity? w.rule <;> simp

/-- Without settings for its rule a complaint is a warning, and a report of it has no errors. -/
theorem severity_missing_reason_standard :
    let text := "import{query}from\"_generated/server\";query()//authlint:allow(all)"
    let complaint : Violation :=
      ⟨"AUTH001", "no-raw-convex-function", none, .warning, ⟨⟨"a.ts"⟩, 1, 38, 37, 5⟩,
        "Allow directive for 'no-raw-convex-function' is missing required reason",
        some "Add reason=\"...\" to explain why this exception is necessary"⟩
    let config : Config := ⟨⟨⟨"."⟩, [], true⟩, .standard, []⟩
    let a : Analyzer := ⟨.join ⟨"/"⟩ ⟨"."⟩, Rule.all .standard, [], config⟩
    let i : Cli.Invocation := ⟨[], ⟨"/"⟩, [], .directory [("a.ts", .file text.toUTF8),
      ("authlint.toml", .file "[analyzer]\nexclude=[]".toUTF8)]⟩
    let o : Cli.CheckOptions := ⟨⟨"."⟩, .compact, none, []⟩
    a.Complains ⟨"/./a.ts"⟩ text complaint ∧
      complaint.severity = (config.severity? complaint.rule).getD .warning ∧
      (a.analyze i.files = .ok ⟨[complaint], 1⟩ ∧ Report.hasErrors ⟨[complaint], 1⟩ = false) ∧
      (Cli.loadConfig i (Cli.sourceFor i none o.path) = .ok config ∧
        Cli.checkReport i o config = .ok ⟨[complaint], 1⟩ ∧ (Cli.check i none o).status ≠ 1) := by
  intro text complaint config a i o
  obtain ⟨hcomplains, hseverity, hanalyze, hcheck⟩ :=
    severity_missing_reason a ⟨"/./a.ts"⟩ text complaint
  have hfound : a.checkSource ⟨"/./a.ts"⟩ text = [complaint] := by decide +kernel
  have hcomplaint := hcomplains.2 ⟨by simp [hfound], rfl⟩
  have hload : Cli.loadConfig i (Cli.sourceFor i none o.path) = .ok config := by decide +kernel
  have hsources : a.sources? i.files = some [(⟨"/./a.ts"⟩, text.toUTF8)] := by decide +kernel
  have htext : String.fromUTF8? text.toUTF8 = some text := by decide +kernel
  have hreport : a.analyze i.files = .ok ⟨[complaint], 1⟩ :=
    a.analyze_of_single hsources htext hfound
  have hreport' : Cli.checkReport i o config = .ok ⟨[complaint], 1⟩ :=
    Cli.checkReport_of_analyze (by decide +kernel) (by decide +kernel) rfl hreport
  -- the only violation is a complaint, and no settings ask for errors
  have hnot : ¬Errs config ⟨[complaint], 1⟩ := by
    rw [Errs]
    decide +kernel
  refine ⟨hcomplaint, (hseverity hcomplaint).1, ⟨hreport, ?_⟩, hload, hreport', ?_⟩
  · rw [← Bool.not_eq_true, hanalyze i.files _ hreport]
    exact hnot
  · rw [ne_eq, hcheck i none o _ hload hreport']
    exact hnot

/-- Where the settings of a rule ask for errors, a complaint is an error, and the program exits with
status one. -/
theorem missing_reason_can_be_error :
    let text := "import{query}from\"_generated/server\";query()//authlint:allow(all)"
    let settings := "[analyzer]\nexclude=[]\n[rules.no-raw-convex-function]\nseverity=\"error\""
    let complaint : Violation :=
      ⟨"AUTH001", "no-raw-convex-function", none, .error, ⟨⟨"a.ts"⟩, 1, 38, 37, 5⟩,
        "Allow directive for 'no-raw-convex-function' is missing required reason",
        some "Add reason=\"...\" to explain why this exception is necessary"⟩
    let config : Config :=
      ⟨⟨⟨"."⟩, [], true⟩, .standard, [("no-raw-convex-function", ⟨none, some .error⟩)]⟩
    let a : Analyzer := ⟨.join ⟨"/"⟩ ⟨"."⟩, Rule.all .standard, [], config⟩
    let i : Cli.Invocation := ⟨[], ⟨"/"⟩, [],
      .directory [("a.ts", .file text.toUTF8), ("authlint.toml", .file settings.toUTF8)]⟩
    let o : Cli.CheckOptions := ⟨⟨"."⟩, .compact, none, []⟩
    a.Complains ⟨"/./a.ts"⟩ text complaint ∧ complaint.severity ≠ .warning ∧
      Cli.loadConfig i (Cli.sourceFor i none o.path) = .ok config ∧
      Cli.checkReport i o config = .ok ⟨[complaint], 1⟩ ∧ (Cli.check i none o).status = 1 := by
  intro text settings complaint config a i o
  have hfound : a.checkSource ⟨"/./a.ts"⟩ text = [complaint] := by decide +kernel
  have hload : Cli.loadConfig i (Cli.sourceFor i none o.path) = .ok config := by decide +kernel
  have hsources : a.sources? i.files = some [(⟨"/./a.ts"⟩, text.toUTF8)] := by decide +kernel
  have htext : String.fromUTF8? text.toUTF8 = some text := by decide +kernel
  have hreport : Cli.checkReport i o config = .ok ⟨[complaint], 1⟩ :=
    Cli.checkReport_of_analyze (by decide +kernel) (by decide +kernel) rfl
      (a.analyze_of_single hsources htext hfound)
  refine ⟨a.complains_iff.2 ⟨by simp [hfound], rfl⟩, by decide, hload, hreport, ?_⟩
  exact (Cli.status_check_iff hload hreport).2 (.inr ⟨complaint, by simp, rfl, by decide +kernel⟩)

end Analyzer

end IdentityLint
