import IdentityLint.Analyzer
import IdentityLint.Proofs.Findings

/-!
# Suppression, from the text to the output

What becomes of a violation depends on the rule that found it and on two directives: the one on
the line of the violation and the one on the line above.  `Rule.Settled` says what becomes of it,
and `Rule.settle` is what the analyzer does, as a function of these alone.

A file is analyzed by settling the findings of each rule one by one, and by putting what is left
in order.  The analyzer takes two short cuts, for files to which no rule applies and for files
without directives; neither of them changes the outcome.
-/

namespace IdentityLint

open Syntax

/-! ### Directives by line -/

namespace Directives

/-- The directive on a line of a text.  Lines are counted from one, so nothing is above the
first. -/
def onLine? (content : String) : Nat → Option Directive
  | 0 => none
  | l + 1 => (Text.lines content.toList)[l]?.bind Directive.ofLine?

lemma lookup_ofLines_of_lt {line first : Nat} (h : line < first) (ls : List (List Char)) :
    (ofLines first ls).lookup line = none := by
  induction ls generalizing first with
  | nil => rfl
  | cons l ls ih =>
    rw [ofLines]
    cases Directive.ofLine? l with
    | none => exact ih (Nat.lt_succ_of_lt h)
    | some d =>
      have hne : (line == first) = false := beq_false_of_ne (Nat.ne_of_lt h)
      simp only [List.lookup_cons, hne]
      exact ih (Nat.lt_succ_of_lt h)

/-- Every line has its own number, so no directive hides another. -/
lemma lookup_ofLines (first i : Nat) (ls : List (List Char)) :
    (ofLines first ls).lookup (first + i) = ls[i]?.bind Directive.ofLine? := by
  induction ls generalizing first i with
  | nil => rfl
  | cons l ls ih =>
    cases i with
    | zero =>
      rw [ofLines, Nat.add_zero, List.getElem?_cons_zero, Option.bind_some]
      cases Directive.ofLine? l with
      | none =>
        -- the lines behind have larger numbers
        exact lookup_ofLines_of_lt (Nat.lt_succ_self first) ls
      | some d => exact List.lookup_cons_self
    | succ i =>
      have hnext : first + (i + 1) = first + 1 + i := by omega
      have hne : (first + 1 + i == first) = false := beq_false_of_ne (by omega)
      rw [ofLines, List.getElem?_cons_succ, ← ih (first + 1) i, hnext]
      cases Directive.ofLine? l with
      | none => rfl
      | some d => simp only [List.lookup_cons, hne]

lemma lookup_scan (content : String) (line : Nat) :
    (scan content).entries.lookup line = onLine? content line := by
  cases line with
  | zero => exact lookup_ofLines_of_lt Nat.zero_lt_one _
  | succ l => rw [scan, Nat.add_comm, lookup_ofLines, Nat.add_comm, onLine?]

lemma covering?_scan (content : String) (line : Nat) (rule : String) :
    (scan content).covering? line rule = (onLine? content line).filter (·.covers rule) := by
  rw [covering?, lookup_scan]
  cases onLine? content line <;> rfl

lemma check_scan (content : String) (line : Nat) (rule : String) :
    (scan content).check line rule =
      (((onLine? content line).filter (·.covers rule)).or
        ((onLine? content (line - 1)).filter (·.covers rule))).elim .denied
          fun d => .allowed d.reason := by
  rw [check, covering?_scan, covering?_scan]
  cases (onLine? content line).filter (·.covers rule) with
  | some d => rfl
  | none => cases (onLine? content (line - 1)).filter (·.covers rule) <;> rfl

end Directives

/-! ### What becomes of a violation -/

namespace Rule

/-- A directive lists the name of a rule, or `all`. -/
def AllowedBy (r : Rule) (d : Directive) : Prop := r.name ∈ d.rules ∨ "all" ∈ d.rules

lemma covers_iff (r : Rule) (d : Directive) : d.covers r.name = true ↔ r.AllowedBy d := by
  simp [Directive.covers, AllowedBy]

/-- The directive that decides about a violation of a rule: the one on its own line if that allows
the rule, or else the one on the line above. -/
inductive DecidedBy (r : Rule) (own above : Option Directive) (d : Directive) : Prop
  | own (hown : own = some d) (hd : r.AllowedBy d)
  | above (hown : ∀ e ∈ own, ¬r.AllowedBy e) (habove : above = some d) (hd : r.AllowedBy d)

/-- What is left of a violation, given the directives on its line and on the line above: the
violation, nothing, or the complaint that a reason is missing. -/
inductive Settled (r : Rule) (own above : Option Directive) (v : Violation) :
    Option Violation → Prop
  | kept (hown : ∀ d ∈ own, ¬r.AllowedBy d) (habove : ∀ d ∈ above, ¬r.AllowedBy d) :
      Settled r own above v (some v)
  | dropped {d : Directive} (hd : r.DecidedBy own above d)
      (hreason : d.reason ≠ none ∨ r.requiresReason = false) : Settled r own above v none
  | replaced {d : Directive} (hd : r.DecidedBy own above d) (hreason : d.reason = none)
      (hrequired : r.requiresReason = true) {w : Violation} (hcode : w.code = r.code)
      (hrule : w.rule = r.name) (hmessage : w.messageId = none)
      (hlocation : w.location = v.location) : Settled r own above v (some w)

/-- What is left of a violation, as a function of the two directives. -/
def settle (r : Rule) (own above : Option Directive) (v : Violation) : Option Violation :=
  match (own.filter (·.covers r.name)).or (above.filter (·.covers r.name)) with
  | none => some v
  | some d => if d.reason = none ∧ r.requiresReason = true then some (r.missingReason v) else none

variable {r : Rule} {own above : Option Directive}

lemma filter_covers_eq_some_iff {o : Option Directive} {d : Directive} :
    o.filter (·.covers r.name) = some d ↔ o = some d ∧ r.AllowedBy d := by
  rw [Option.filter_eq_some_iff, covers_iff]

lemma filter_covers_eq_none_iff {o : Option Directive} :
    o.filter (·.covers r.name) = none ↔ ∀ d ∈ o, ¬r.AllowedBy d := by
  simp only [Option.filter_eq_none_iff, covers_iff, Option.mem_def]

lemma settled_settle (r : Rule) (own above : Option Directive) (v : Violation) :
    r.Settled own above v (r.settle own above v) := by
  -- a directive that covers the rule decides the outcome by its reason
  have hdecided : ∀ d, r.DecidedBy own above d → r.Settled own above v
      (if d.reason = none ∧ r.requiresReason = true then some (r.missingReason v) else none) := by
    intro d hd
    split
    · next h => exact .replaced hd h.1 h.2 rfl rfl rfl rfl
    · next h =>
      refine .dropped hd ?_
      rwa [not_and_or, Bool.not_eq_true] at h
  rw [settle]
  cases hown : own.filter (·.covers r.name) with
  | some d =>
    obtain ⟨hsome, hd⟩ := filter_covers_eq_some_iff.1 hown
    exact hdecided d (.own hsome hd)
  | none =>
    rw [filter_covers_eq_none_iff] at hown
    cases habove : above.filter (·.covers r.name) with
    | some d =>
      obtain ⟨hsome, hd⟩ := filter_covers_eq_some_iff.1 habove
      exact hdecided d (.above hown hsome hd)
    | none =>
      rw [filter_covers_eq_none_iff] at habove
      exact .kept hown habove

/-- The analyzer looks at the two lines only. -/
lemma judge_scan (r : Rule) (content : String) (v : Violation) :
    r.judge (.scan content) v =
      r.settle (Directives.onLine? content v.location.line)
        (Directives.onLine? content (v.location.line - 1)) v := by
  rw [judge, Directives.check_scan, settle]
  cases ((Directives.onLine? content v.location.line).filter (·.covers r.name)).or
      ((Directives.onLine? content (v.location.line - 1)).filter (·.covers r.name)) with
  | none => rfl
  | some d =>
    obtain ⟨rules, reason⟩ := d
    cases reason <;> simp

/-- Without directives, judging the violations one by one keeps them all. -/
lemma suppress_eq (r : Rule) (ds : Directives) (vs : List Violation) :
    r.suppress ds vs = vs.filterMap (r.judge ds) := by
  rw [suppress]
  split
  · next hempty =>
    have hjudge : r.judge ds = some := by
      funext v
      rw [judge, Directives.check, Directives.covering?, Directives.covering?,
        List.isEmpty_iff.1 hempty]
      rfl
    rw [hjudge, List.filterMap_some]
  · rfl

/-- The violations that the check of a rule holds at the end of a file. -/
def findings (r : Rule) (file : SourceFile) : List Violation :=
  ((Check.start r).behind file file.tree).found

end Rule

/-! ### The output -/

namespace Analyzer

/-- The violation with the severity that the settings of a rule ask for. -/
def graded (a : Analyzer) (r : Rule) (v : Violation) : Violation :=
  { v with severity := (a.config.severity? r.name).getD v.severity }

lemma withSeverity_eq (a : Analyzer) (r : Rule) (vs : List Violation) :
    a.withSeverity r vs = vs.map (a.graded r) := by
  rw [withSeverity]
  unfold graded
  cases a.config.severity? r.name with
  | none => exact (List.map_id vs).symm
  | some s => rfl

/-- What the settings and the directives of a text leave of a violation of a rule. -/
def outcome (a : Analyzer) (content : String) (r : Rule) (v : Violation) : Option Violation :=
  (r.settle (Directives.onLine? content v.location.line)
    (Directives.onLine? content (v.location.line - 1)) v).map (a.graded r)

lemma verdicts_scan (a : Analyzer) (content : String) (r : Rule) (c : Check) :
    a.verdicts (.scan content) r c = c.found.filterMap (a.outcome content r) := by
  rw [verdicts, withSeverity_eq, Rule.suppress_eq, List.map_filterMap]
  refine List.filterMap_congr fun v _ => ?_
  rw [Rule.judge_scan, outcome]

/-- A rule gets a check exactly if the file is not exempt from it, so each check stands where its
rule does. -/
lemma startAll_eq (a : Analyzer) (file : SourceFile) :
    a.startAll file =
      (a.enabledRules.filter (!·.exempts file),
        (a.enabledRules.filter (!·.exempts file)).map Check.start) := by
  have hpairs : (a.enabledRules.filterMap fun r => (Check.start? r file).map fun c => (r, c)) =
      (a.enabledRules.filter (!·.exempts file)).map fun r => (r, Check.start r) := by
    rw [← List.filterMap_eq_map, List.filterMap_filter]
    refine List.filterMap_congr fun r _ => ?_
    cases h : r.exempts file with
    | false => rw [Check.start?_of_not_exempt h]; rfl
    | true => rw [Check.start?, h]; rfl
  rw [startAll, hpairs, List.unzip_eq_map, List.map_map, List.map_map]
  exact congrArg (·, _) (List.map_id _)

/-- The violations in a file that is read as a given tree, in the order of their places. -/
def checkTree (a : Analyzer) (file : SourceFile) (tree : Node) : List Violation :=
  let (active, checks) := a.startAll file
  if checks.isEmpty then []
  else
    ((active.zip (tree.walk (fun cs v => cs.map fun c => c.observe file v) checks)).flatMap fun p =>
      a.verdicts (.scan file.content) p.1 p.2).mergeSort precedes

lemma checkTree_eq (a : Analyzer) (file : SourceFile) (tree : Node) :
    a.checkTree file tree =
      ((a.enabledRules.filter (!·.exempts file)).flatMap fun r =>
        ((Check.start r).behind file tree).found.filterMap
          (a.outcome file.content r)).mergeSort precedes := by
  rw [checkTree, startAll_eq]
  generalize a.enabledRules.filter (!·.exempts file) = active
  -- the walk keeps the checks in their places, so each rule meets its own
  have hzip : active.zip (tree.walk (fun cs v => cs.map fun c => c.observe file v)
        (active.map Check.start)) =
      active.map fun r => (r, (Check.start r).behind file tree) := by
    rw [Check.walk_map_observe, List.map_map]
    nth_rewrite 1 [← List.map_id active]
    exact List.zip_map'
  simp only [hzip, List.flatMap_map, verdicts_scan]
  split
  · next hempty =>
    -- no check, no finding
    obtain rfl : active = [] := List.map_eq_nil_iff.1 (List.isEmpty_iff.1 hempty)
    exact List.mergeSort_nil.symm
  · rfl

lemma checkFile_eq (a : Analyzer) (file : SourceFile) :
    a.checkFile file =
      ((a.enabledRules.filter (!·.exempts file)).flatMap fun r =>
        (r.findings file).filterMap (a.outcome file.content r)).mergeSort precedes :=
  a.checkTree_eq file file.tree

/-- The output for a file consists of what is left of the findings of the rules that apply to it.
Each finding is settled by itself, by the directives on its own line and on the line above. -/
theorem checkSource_settles (a : Analyzer) (path : Path) (content : String) :
    let file := SourceFile.new path content a.root
    a.checkSource path content =
        ((a.enabledRules.filter (!·.exempts file)).flatMap fun r =>
          (r.findings file).filterMap fun v =>
            (r.settle (Directives.onLine? content v.location.line)
              (Directives.onLine? content (v.location.line - 1)) v).map
                (a.graded r)).mergeSort precedes ∧
      (∀ (r : Rule) own above v, r.Settled own above v (r.settle own above v)) ∧
      Directives.onLine? content 0 = none :=
  ⟨a.checkFile_eq _, Rule.settled_settle, rfl⟩

end Analyzer

end IdentityLint
