import IdentityLint.Proofs.MissingReason
import IdentityLint.Proofs.ReportOrder
import IdentityLint.Proofs.RuleIndependence
import IdentityLint.Proofs.StatementLayout
import IdentityLint.Proofs.TextParts
import Mathlib.Algebra.GroupWithZero.Nat

/-!
# Checks with a filter

A check can be given a filter, a list of names and codes of the rules to run.  The rules run in the
order of the filter, and a rule that the filter names twice runs twice.  Since no two violations in
a file begin at the same place, sorting undoes the order, but it cannot undo the repetition: the
report is that of the check without a filter, with every violation as often as the filter names its
rule (`Cli.checkReport_filter`).
-/

namespace IdentityLint

lemma mapError_map {α β ε ε' : Type} (f : ε → ε') (g : α → β) (x : Except ε α) :
    (x.map g).mapError f = (x.mapError f).map g := by
  cases x <;> rfl

/-! ### The items of a filter -/

namespace RuleFilter

/-- The items of a filter: the texts between its commas, without the blanks around them. -/
def items (filter : String) : List (List Char) := (Text.splitAt ',' filter.toList).map Text.trim

/-- Does an item spell a name or a code, in letters of any case? -/
def spells (item : List Char) (name code : String) : Bool :=
  Text.sameLetters item name.toList || Text.sameLetters item code.toList

/-- Does an item spell the name or the code of the rules of a kind? -/
def selects (item : List Char) (k : RuleKind) : Bool := spells item k.name k.code

/-- How often a filter names the rule of a violation. -/
def mentions (filter : String) (v : Violation) : Nat :=
  (items filter).countP fun item => spells item v.rule v.code

/-- The items that name no rule, without the empty ones. -/
def unknown (filter : String) : List String :=
  ((items filter).filter fun item =>
    !item.isEmpty && RuleKind.all.all fun k => !selects item k).map String.ofList

end RuleFilter

/-- Every violation of a report as often as a filter names its rule. -/
def Report.restricted (filter : String) (r : Report) : Report :=
  { r with
    violations := r.violations.flatMap fun v => List.replicate (RuleFilter.mentions filter v) v }

lemma Text.sameLetters_iff {s t : List Char} :
    sameLetters s t = true ↔ s.map Char.toLower = t.map Char.toLower := by
  induction s generalizing t with
  | nil => cases t <;> simp [sameLetters]
  | cons a s ih => cases t <;> simp [sameLetters, sameLetter, ih]

namespace RuleFilter

lemma trimmed_of_mem_items {filter : String} {item : List Char} (h : item ∈ items filter) :
    Text.Trimmed item := by
  obtain ⟨text, -, rfl⟩ := List.mem_map.1 h
  exact (Text.trimsTo_trim text).1

lemma isCalled_ofList {item : List Char} (h : Text.Trimmed item) (k : RuleKind) :
    k.isCalled (String.ofList item) = selects item k := by
  rw [RuleKind.isCalled, String.toList_ofList, h.trim_eq]
  rfl

/-- An item names one kind of rules at most. -/
lemma eq_of_selects {item : List Char} {k l : RuleKind} (hk : selects item k = true)
    (hl : selects item l = true) : k = l := by
  have hspelled : ∀ {m : RuleKind}, selects item m = true →
      item.map Char.toLower ∈ [m.name, m.code].map fun s => s.toList.map Char.toLower := by
    intro m hm
    simpa [selects, spells, Text.sameLetters_iff] using hm
  have hdisjoint : ∀ k l : RuleKind, k ≠ l →
      ∀ s ∈ [k.name, k.code].map fun s => s.toList.map Char.toLower,
        s ∉ [l.name, l.code].map fun s => s.toList.map Char.toLower := by
    rintro (_ | _) (_ | _) <;> decide
  by_contra hne
  exact hdisjoint k l hne _ (hspelled hk) (hspelled hl)

lemma selects_nil (k : RuleKind) : selects [] k = false := by
  cases k <;> rfl

lemma toList_ofKey? {item : List Char} (h : Text.Trimmed item) :
    (RuleKind.ofKey? (String.ofList item)).toList = RuleKind.all.filter (selects item) := by
  have hboth : ¬(selects item .rawFactory = true ∧ selects item .identityLookup = true) :=
    fun hboth => absurd (eq_of_selects hboth.1 hboth.2) (by decide)
  rw [RuleKind.ofKey?, RuleKind.all]
  simp only [isCalled_ofList h]
  cases hraw : selects item .rawFactory <;> cases hlookup : selects item .identityLookup <;>
    simp_all

end RuleFilter

namespace Cli

open RuleFilter

/-- A filter selects the rules that its items name, item by item. -/
lemma rulesFor_some (filter : String) (c : Conventions) :
    rulesFor (some filter) c = (items filter).flatMap fun item =>
      (RuleKind.all.filter (selects item)).map (Rule.new · c) := by
  rw [rulesFor, filterNames, ← items, List.filterMap_map, List.filterMap_eq_flatMap_toList,
    Analyzer.flatMap_filter]
  refine List.flatMap_congr fun item hitem => ?_
  split
  · rw [Function.comp_apply, Rule.ofKey?, Option.toList_map,
      toList_ofKey? (trimmed_of_mem_items hitem)]
  · simp_all [selects_nil]

lemma filterWarnings_some (filter : String) :
    filterWarnings (some filter) = (unknown filter).map ("Unknown rule: " ++ ·) := by
  have hunknown : ∀ item ∈ items filter, (RuleKind.ofKey? (String.ofList item)).isNone =
      RuleKind.all.all fun k => !selects item k := by
    intro item hitem
    have hkinds := toList_ofKey? (trimmed_of_mem_items hitem)
    rw [Bool.eq_iff_iff, Option.isNone_iff_eq_none, ← Option.toList_eq_nil_iff, hkinds]
    simp
  rw [filterWarnings, filterNames, ← items, unknown, List.filter_map, List.filter_filter]
  refine congrArg _ (congrArg _ (List.filter_congr fun item hitem => ?_))
  rw [Function.comp_apply, hunknown item hitem, Bool.and_comm]

end Cli

/-! ### Repetition -/

section Repetition

variable {α β : Type} {n : α → Nat}

/-- To go through a list and repeat its elements is to select those from it that belong to the first
key, those that belong to the second key, and so on. -/
lemma perm_flatMap_filter (keys : List β) (p : β → α → Bool) (l : List α) :
    List.Perm (keys.flatMap fun key => l.filter (p key))
      (l.flatMap fun a => List.replicate (keys.countP fun key => p key a) a) := by
  have hfilter : ∀ key, l.filter (p key) = l.flatMap fun a => if p key a then [a] else [] := by
    intro key
    rw [← List.flatMap_singleton' (l.filter (p key)), Analyzer.flatMap_filter]
  have hreplicate : ∀ a, List.replicate (keys.countP fun key => p key a) a =
      keys.flatMap fun key => if p key a then [a] else [] := by
    intro a
    induction keys with
    | nil => rfl
    | cons key keys ih =>
      rw [List.flatMap_cons, ← ih, List.countP_cons]
      split <;> simp [List.replicate_succ]
  simp only [hfilter, hreplicate]
  exact perm_flatMap_flatMap _ _ _

lemma mem_of_mem_flatMap_replicate {l : List α} {a : α}
    (h : a ∈ l.flatMap fun a => List.replicate (n a) a) : a ∈ l := by
  obtain ⟨b, hb, hab⟩ := List.mem_flatMap.1 h
  exact List.eq_of_mem_replicate hab ▸ hb

/-- Where nothing is repeated more than once, the list is filtered. -/
lemma flatMap_replicate_of_le_one {l : List α} (h : ∀ a ∈ l, n a ≤ 1) :
    (l.flatMap fun a => List.replicate (n a) a) = l.filter fun a => 0 < n a := by
  rw [← List.flatMap_singleton' (l.filter _), Analyzer.flatMap_filter]
  refine List.flatMap_congr fun a ha => ?_
  rcases Nat.le_one_iff_eq_zero_or_eq_one.1 (h a ha) with hn | hn <;> simp [hn]

lemma filter_flatMap_replicate (p : α → Bool) (l : List α) :
    (l.flatMap fun a => List.replicate (n a) a).filter p =
      (l.filter p).flatMap fun a => List.replicate (n a) a := by
  rw [List.filter_flatMap, Analyzer.flatMap_filter]
  refine List.flatMap_congr fun a _ => ?_
  rw [List.filter_replicate]

variable {le : α → α → Bool} (trans : ∀ a b c, le a b = true → le b c = true → le a c = true)
  (total : ∀ a b, (le a b || le b a) = true)

include trans total in
/-- Elements can be repeated before or after sorting. -/
lemma mergeSort_flatMap_replicate (l : List α) :
    (l.flatMap fun a => List.replicate (n a) a).mergeSort le =
      (l.mergeSort le).flatMap fun a => List.replicate (n a) a := by
  refine eq_of_ties total (List.pairwise_mergeSort trans total _) ?_ fun a => ?_
  · refine List.pairwise_flatMap.2 ⟨fun a _ => ?_, ?_⟩
    · have haa := (Bool.and_eq_true_iff.1 (tied_self total a)).1
      exact List.pairwise_replicate.2 (.inr haa)
    · refine (List.pairwise_mergeSort trans total l).imp fun {a b} hab x hx y hy => ?_
      rw [List.eq_of_mem_replicate hx, List.eq_of_mem_replicate hy]
      exact hab
  · rw [filter_tied_mergeSort trans total, filter_flatMap_replicate, filter_flatMap_replicate,
      filter_tied_mergeSort trans total]

include trans total in
/-- Where elements that tie are the same, sorting forgets the order. -/
lemma mergeSort_eq_of_perm {l m : List α} (hperm : l.Perm m)
    (hties : ∀ a ∈ m, ∀ b ∈ m, le a b = true → le b a = true → a = b) :
    l.mergeSort le = m.mergeSort le := by
  have hl : (l.mergeSort le).Perm m := (List.mergeSort_perm l le).trans hperm
  refine List.Perm.eq_of_pairwise ?_ (List.pairwise_mergeSort trans total l)
    (List.pairwise_mergeSort trans total m) (hl.trans (List.mergeSort_perm m le).symm)
  intro a b ha hb
  exact hties a (hl.mem_iff.1 ha) b (List.mem_mergeSort.1 hb)

end Repetition

namespace Report

open RuleFilter

variable (r : Report) (filter : String)

lemma bySeverity_restricted (s : Severity) :
    (r.restricted filter).bySeverity s =
      (r.bySeverity s).flatMap fun v => List.replicate (mentions filter v) v :=
  filter_flatMap_replicate _ _

lemma count_restricted (s : Severity) :
    (r.restricted filter).count s = ((r.bySeverity s).map (mentions filter)).sum := by
  rw [count_eq_length, bySeverity_restricted, List.length_flatMap]
  simp only [List.length_replicate]

lemma hasErrors_restricted_iff :
    (r.restricted filter).hasErrors = true ↔
      ∃ v ∈ r.violations, v.severity = .error ∧ 0 < mentions filter v := by
  rw [hasErrors_iff, bySeverity_restricted, ne_eq, List.length_eq_zero_iff, List.flatMap_eq_nil_iff]
  simp [bySeverity, Nat.pos_iff_ne_zero]

end Report

/-! ### Single files -/

/-- What a rule finds bears its name and its code. -/
lemma Rule.spelling_of_mem_findings {r : Rule} {file : SourceFile} {v : Violation}
    (h : v ∈ r.findings file) : v.rule = r.name ∧ v.code = r.code := by
  rw [findings, found_behind _ _ file.distinctFunctions_tree] at h
  obtain ⟨p, -, h⟩ := List.mem_filterMap.1 h
  rw [finding?] at h
  split at h
  · next hkind =>
    obtain ⟨callee, name, b, banned, -, -, -, -, rfl⟩ :=
      (RawFactory.violation?_eq_some_iff _ _ _).1 h
    rw [Rule.name, Rule.code, hkind]
    exact ⟨rfl, rfl⟩
  · next hkind =>
    obtain ⟨-, h⟩ := Option.ite_none_right_eq_some.1 h
    obtain rfl := Option.some.inj h
    rw [Rule.name, Rule.code, hkind]
    exact ⟨rfl, rfl⟩

namespace Analyzer

open RuleFilter

variable (a : Analyzer) (file : SourceFile)

/-- All that a rule contributes bears its name and its code. -/
lemma spelling_of_mem_share {r : Rule} {v : Violation} (h : v ∈ a.share file r) :
    v.rule = r.name ∧ v.code = r.code := by
  rw [share] at h
  split at h
  · obtain ⟨w, hw, houtcome⟩ := List.mem_filterMap.1 h
    obtain ⟨u, hu, rfl⟩ := Option.map_eq_some_iff.1 houtcome
    have hsettled := r.settled_settle (Directives.onLine? file.content w.location.line)
      (Directives.onLine? file.content (w.location.line - 1)) w
    rw [hu] at hsettled
    cases hsettled with
    | kept => exact Rule.spelling_of_mem_findings (v := w) hw
    | replaced hd hreason hrequired hcode hrule => exact ⟨hrule, hcode⟩
  · cases h

/-- The shares of the rules that an item selects are what it selects from the shares of all. -/
lemma shares_selected (c : Conventions) (item : List Char) :
    (((RuleKind.all.filter (selects item)).map (Rule.new · c)).flatMap (a.share file)) =
      ((Rule.all c).flatMap (a.share file)).filter fun v => spells item v.rule v.code := by
  rw [Rule.all, List.flatMap_map, List.flatMap_map, flatMap_filter, List.filter_flatMap]
  refine List.flatMap_congr fun k _ => ?_
  have hspells : ∀ v ∈ a.share file (Rule.new k c), spells item v.rule v.code = selects item k := by
    intro v hv
    obtain ⟨hrule, hcode⟩ := a.spelling_of_mem_share file hv
    rw [hrule, hcode]
    rfl
  rw [List.filter_congr hspells]
  cases selects item k <;> simp

/-- In the output of all rules no two violations begin at the same place. -/
lemma pairwise_offset_checkFile (c : Conventions) (hrules : a.rules = Rule.all c) :
    (a.checkFile file).Pairwise fun v w => v.location.offset < w.location.offset := by
  have hkinds : (a.rules.map Rule.kind).Nodup := by
    rw [hrules]
    exact (by decide : RuleKind.all.Nodup)
  have hspans : file.tree.WellSpanned := Syntax.wellSpanned_parse _ _
  rw [show a.checkFile file = a.checkTree file file.tree from rfl,
    checkTree_eq_flatMap file.distinctFunctions_tree hspans hkinds]
  exact pairwise_verdictsAt hspans hkinds file

/-- With a filter a file gives the same violations as without, each as often as the filter names
its rule. -/
lemma checkFile_filter (c : Conventions) (filter : String) :
    ({ a with rules := Cli.rulesFor (some filter) c } : Analyzer).checkFile file =
      (({ a with rules := Cli.rulesFor none c } : Analyzer).checkFile file).flatMap fun v =>
        List.replicate (mentions filter v) v := by
  let whole := (Rule.all c).flatMap (a.share file)
  have hwhole : ({ a with rules := Cli.rulesFor none c } : Analyzer).checkFile file =
      whole.mergeSort precedes := checkFile_eq_shares _ _
  -- an offset has one violation, so it does not matter in which order the items select violations
  have hunique : ∀ v ∈ whole, ∀ w ∈ whole, v.location.offset = w.location.offset → v = w := by
    have hincreasing := hwhole ▸ pairwise_offset_checkFile _ file c rfl
    have hdistinct : ((whole.mergeSort precedes).map (·.location.offset)).Nodup :=
      List.pairwise_map.2 (hincreasing.imp Nat.ne_of_lt)
    intro v hv w hw hvw
    exact List.inj_on_of_nodup_map hdistinct (List.mem_mergeSort.2 hv) (List.mem_mergeSort.2 hw) hvw
  have hselected : (Cli.rulesFor (some filter) c).flatMap (a.share file) =
      (items filter).flatMap fun item => whole.filter fun v => spells item v.rule v.code := by
    rw [Cli.rulesFor_some, List.flatMap_assoc]
    exact List.flatMap_congr fun item _ => a.shares_selected file c item
  have hfiltered : ({ a with rules := Cli.rulesFor (some filter) c } : Analyzer).checkFile file =
      ((items filter).flatMap fun item =>
        whole.filter fun v => spells item v.rule v.code).mergeSort precedes :=
    (checkFile_eq_shares _ _).trans (congrArg (List.mergeSort · precedes) hselected)
  rw [hfiltered, hwhole, ← mergeSort_flatMap_replicate precedes_trans precedes_total]
  refine mergeSort_eq_of_perm precedes_trans precedes_total (perm_flatMap_filter _ _ whole) ?_
  intro v hv w hw hvw hwv
  rw [precedes_iff] at hvw hwv
  exact hunique v (mem_of_mem_flatMap_replicate hv) w (mem_of_mem_flatMap_replicate hw) (by omega)

/-! ### Runs -/

lemma reportOf_filter (c : Conventions) (filter : String) (files : List (Path × ByteArray)) :
    ({ a with rules := Cli.rulesFor (some filter) c } : Analyzer).reportOf files =
      (({ a with rules := Cli.rulesFor none c } : Analyzer).reportOf files).map
        (Report.restricted filter) := by
  induction files with
  | nil => rfl
  | cons f files ih =>
    obtain ⟨path, content⟩ := f
    rw [reportOf, reportOf]
    cases String.fromUTF8? content with
    | none => rfl
    | some text =>
      simp only [ih]
      cases ({ a with rules := Cli.rulesFor none c } : Analyzer).reportOf files with
      | error e => rfl
      | ok r =>
        refine congrArg (fun vs => Except.ok (Report.mk vs (r.filesChecked + 1))) ?_
        rw [List.flatMap_append]
        exact congrArg (· ++ _) (a.checkFile_filter (.new path text a.root) c filter)

lemma analyze_filter (c : Conventions) (filter : String) (fs : FileTree) :
    ({ a with rules := Cli.rulesFor (some filter) c } : Analyzer).analyze fs =
      (({ a with rules := Cli.rulesFor none c } : Analyzer).analyze fs).map
        (Report.restricted filter) := by
  have hsources : ∀ rules, ({ a with rules := rules } : Analyzer).sources? fs = a.sources? fs :=
    fun _ => rfl
  rw [analyze, analyze, hsources (Cli.rulesFor (some filter) c), hsources (Cli.rulesFor none c)]
  cases a.sources? fs with
  | none => rfl
  | some files =>
    simp only [reportOf_filter]
    cases ({ a with rules := Cli.rulesFor none c } : Analyzer).reportOf files with
    | error e => rfl
    | ok r =>
      exact congrArg (fun vs => Except.ok (Report.mk vs r.filesChecked))
        (mergeSort_flatMap_replicate Report.before_trans Report.before_total r.violations)

end Analyzer

namespace Cli

open RuleFilter

variable (i : Invocation) (explicit : Option Path) (o : CheckOptions) (filter : String)

/-- A filter restricts the report, and changes nothing about failures. -/
lemma checkReport_filter (config : Config) :
    checkReport i { o with rules := some filter } config =
      (checkReport i { o with rules := none } config).map (Report.restricted filter) := by
  rw [checkReport, checkReport, Analyzer.build, Analyzer.build]
  cases config.conventions.error? with
  | some e => rfl
  | none =>
    cases Analyzer.patterns (o.exclude ++ config.discovery.exclude) with
    | error e => rfl
    | ok exclude =>
      let root := if o.path.isAbsolute then o.path else i.cwd.join o.path
      have hanalyze := Analyzer.analyze_filter ⟨root, [], exclude, config⟩ config.conventions filter
        i.files
      exact (congrArg (Except.mapError Error.analysis) hanalyze).trans (mapError_map _ _ _)

variable {i explicit o}

lemma Reports.with_filter {whole : Report} (h : Reports i explicit { o with rules := none } whole) :
    Reports i explicit { o with rules := some filter } (whole.restricted filter) := by
  obtain ⟨config, hconfig, hreport⟩ := h
  refine ⟨config, hconfig, ?_⟩
  rw [checkReport_filter, hreport]
  rfl

lemma Reports.eq {r r' : Report} (h : Reports i explicit o r) (h' : Reports i explicit o r') :
    r = r' := by
  obtain ⟨config, hconfig, hreport⟩ := h
  obtain ⟨config', hconfig', hreport'⟩ := h'
  obtain rfl := Except.ok.inj (hconfig.symm.trans hconfig')
  exact Except.ok.inj (hreport.symm.trans hreport')

/-- A check with a filter reports what the check without it reports, in the same order and each
violation as often as the filter names its rule: not at all, or once, or more often.  Its counts and
its status follow from this report, it warns about the names that no rule has, and it fails as the
check without the filter does. -/
theorem check_filter (i : Invocation) (explicit : Option Path) (o : CheckOptions)
    (filter : String) :
    (∀ config, checkReport i { o with rules := some filter } config =
      (checkReport i { o with rules := none } config).map (Report.restricted filter)) ∧
    ∀ whole, Reports i explicit { o with rules := none } whole →
      Reports i explicit { o with rules := some filter } (whole.restricted filter) ∧
      check i explicit { o with rules := some filter } =
        ⟨if ∃ v ∈ whole.violations, v.severity = .error ∧ 0 < mentions filter v then 1 else 0,
          reportText o.format (whole.restricted filter), none,
          (unknown filter).map ("Unknown rule: " ++ ·), []⟩ ∧
      (∀ s, (whole.restricted filter).count s =
        ((whole.bySeverity s).map (mentions filter)).sum) ∧
      ((∀ v ∈ whole.violations, mentions filter v ≤ 1) →
        (whole.restricted filter).violations =
          whole.violations.filter fun v => 0 < mentions filter v) := by
  refine ⟨checkReport_filter i o filter, fun whole hwhole => ?_⟩
  have hreports := hwhole.with_filter filter
  refine ⟨hreports, ?_, fun s => whole.count_restricted filter s,
    fun honce => flatMap_replicate_of_le_one honce⟩
  rw [hreports.check_eq, filterWarnings_some]
  simp only [whole.hasErrors_restricted_iff filter]

/-- A filter with a name and a code of which only one rule finds something, an empty item and an
unknown one. -/
theorem check_filter_items :
    let raw : Violation :=
      ⟨"AUTH001", "no-raw-convex-function", some "useAuthenticatedQuery", .error,
        ⟨⟨"a.ts"⟩, 1, 38, 37, 5⟩,
        "Use `authenticatedQuery` instead of `query` from `_generated/server`",
        some ("import `authenticatedQuery` from the auth module; its handler receives the " ++
          "resolved identity")⟩
    let text := "import\x7bquery\x7dfrom\"_generated/server\";query()"
    let i : Invocation := ⟨[], ⟨"/"⟩, [], .directory [("a.ts", .file text.toUTF8)]⟩
    let o : CheckOptions := ⟨⟨"."⟩, .compact, none, []⟩
    let filter := "auth002, No-Raw-Convex-Function ,,bogus"
    Reports i none o ⟨[raw], 1⟩ ∧ (∀ v ∈ [raw], mentions filter v ≤ 1) ∧
      (Report.restricted filter ⟨[raw], 1⟩).violations = [raw] ∧
      Reports i none { o with rules := some filter } ⟨[raw], 1⟩ ∧
      (check i none { o with rules := some filter }).status = 1 ∧
      (check i none { o with rules := some filter }).warnings = ["Unknown rule: bogus"] := by
  intro raw text i o filter
  have hwhole : Reports i none o ⟨[raw], 1⟩ := ⟨.standard, by decide +kernel, by decide +kernel⟩
  have honce : ∀ v ∈ [raw], mentions filter v ≤ 1 := by decide +kernel
  obtain ⟨-, hfilter⟩ := check_filter i none o filter
  obtain ⟨hreports, hcheck, -, hrestricted⟩ := hfilter _ hwhole
  have hviolations : (Report.restricted filter ⟨[raw], 1⟩).violations = [raw] :=
    (hrestricted honce).trans (by decide +kernel)
  refine ⟨hwhole, honce, hviolations, ?_, ?_, ?_⟩
  · rwa [show Report.restricted filter ⟨[raw], 1⟩ = ⟨[raw], 1⟩ from
      congrArg (Report.mk · 1) hviolations] at hreports
  · rw [hcheck]
    exact if_pos ⟨raw, by simp, rfl, by decide +kernel⟩
  · rw [hcheck]
    decide +kernel

/-- A filter that names a rule by its code in two spellings reports what it finds twice. -/
theorem filter_can_repeat :
    let raw : Violation :=
      ⟨"AUTH001", "no-raw-convex-function", some "useAuthenticatedQuery", .error,
        ⟨⟨"a.ts"⟩, 1, 38, 37, 5⟩,
        "Use `authenticatedQuery` instead of `query` from `_generated/server`",
        some ("import `authenticatedQuery` from the auth module; its handler receives the " ++
          "resolved identity")⟩
    let text := "import\x7bquery\x7dfrom\"_generated/server\";query()"
    let i : Invocation := ⟨[], ⟨"/"⟩, [], .directory [("a.ts", .file text.toUTF8)]⟩
    let o : CheckOptions := ⟨⟨"."⟩, .compact, none, []⟩
    let filter := "AUTH001,auth001"
    Reports i none o ⟨[raw], 1⟩ ∧ ([raw].filter fun v => 0 < mentions filter v) = [raw] ∧
      Reports i none { o with rules := some filter } ⟨[raw, raw], 1⟩ ∧
      ¬Reports i none { o with rules := some filter } ⟨[raw], 1⟩ := by
  intro raw text i o filter
  have hwhole : Reports i none o ⟨[raw], 1⟩ := ⟨.standard, by decide +kernel, by decide +kernel⟩
  have htwice : Report.restricted filter ⟨[raw], 1⟩ = ⟨[raw, raw], 1⟩ := by decide +kernel
  have hreports := Reports.with_filter (o := o) filter hwhole
  rw [htwice] at hreports
  exact ⟨hwhole, by decide +kernel, hreports, fun honce => absurd (honce.eq hreports) (by decide)⟩

end Cli

end IdentityLint
