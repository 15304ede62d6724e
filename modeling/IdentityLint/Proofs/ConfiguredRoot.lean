import IdentityLint.Proofs.MissingReason

/-!
# The configured root

An analyzer that is built without a root looks at the root that its configuration names.  The
command that checks always names a root: its path, which is the current directory if the command
line gives none.  So the configured root is of no account to this command, and what it reports is
what the analyzer reports under the same configuration with the current directory as root
(`Cli.checkReport_eq_reportUnder`).
-/

namespace IdentityLint

section Except

variable {α β ε ε' : Type}

lemma mapError_bind (f : ε → ε') (x : Except ε α) (g : α → Except ε β) :
    (x >>= g).mapError f = x.mapError f >>= fun a => (g a).mapError f := by
  cases x <;> rfl

lemma mapError_congr {f g : ε → ε'} {x : Except ε α} (h : ∀ e, x = .error e → f e = g e) :
    x.mapError f = x.mapError g := by
  cases x with
  | error e => exact congrArg Except.error (h e rfl)
  | ok a => rfl

lemma error_of_bind {x : Except ε α} {f : α → Except ε β} {e : ε} (h : (x >>= f) = .error e) :
    x = .error e ∨ ∃ a, x = .ok a ∧ f a = .error e := by
  cases x with
  | error e' => exact .inl (congrArg Except.error (Except.error.inj h))
  | ok a => exact .inr ⟨a, rfl, h⟩

end Except

/-- A configuration with another root. -/
def Config.withRoot (c : Config) (root : Path) : Config :=
  { c with discovery := { c.discovery with root := root } }

section WithRoot

variable (c : Config) (root : Path)

lemma Config.withRoot_self : c.withRoot c.discovery.root = c := rfl

@[simp] lemma Config.conventions_withRoot : (c.withRoot root).conventions = c.conventions := rfl

@[simp] lemma Config.exclude_withRoot :
    (c.withRoot root).discovery.exclude = c.discovery.exclude := rfl

end WithRoot

namespace Analyzer

/-- What an analyzer reports that is given a configuration, all rules, patterns of files to leave
out and no root. -/
def reportUnder (cwd : Path) (fs : FileTree) (exclude : List String) (config : Config) :
    Except Error Report := do
  let a ← build cwd ⟨none, Rule.all config.conventions, exclude, config⟩
  a.analyze fs

/-! ### Runs under another root -/

lemma reportOf_congr {a b : Analyzer}
    (h : ∀ path content, a.checkSource path content = b.checkSource path content)
    (files : List (Path × ByteArray)) : a.reportOf files = b.reportOf files := by
  induction files with
  | nil => rfl
  | cons f files ih =>
    obtain ⟨path, content⟩ := f
    rw [reportOf, reportOf, ih]
    simp only [h]

/-- An analyzer that is built has no more use for the configured root. -/
lemma analyze_withRoot (a : Analyzer) (root : Path) (fs : FileTree) :
    ({ a with config := a.config.withRoot root } : Analyzer).analyze fs = a.analyze fs := by
  have hsources : ({ a with config := a.config.withRoot root } : Analyzer).sources? fs =
      a.sources? fs := rfl
  have hreport := reportOf_congr (a := { a with config := a.config.withRoot root }) (b := a)
    fun _ _ => rfl
  rw [analyze, analyze, hsources]
  simp only [hreport]

/-- With a root of its own an analyzer is built in the same way under all configured roots. -/
lemma build_withRoot (cwd path root : Path) (rules : List Rule) (exclude : List String)
    (config : Config) :
    build cwd ⟨some path, rules, exclude, config.withRoot root⟩ =
      (build cwd ⟨some path, rules, exclude, config⟩).map fun a =>
        { a with config := a.config.withRoot root } := by
  simp only [build, Config.conventions_withRoot, Config.exclude_withRoot]
  cases config.conventions.error? with
  | some e => rfl
  | none => cases patterns (exclude ++ config.discovery.exclude) <;> rfl

/-! ### Errors -/

lemma error_of_patterns {texts : List String} {e : Error} (h : patterns texts = .error e) :
    ∃ cause, e = .pattern cause := by
  rw [patterns] at h
  induction texts with
  | nil => cases h
  | cons t texts ih =>
    rw [List.mapM_cons] at h
    obtain h | ⟨p, -, h⟩ := error_of_bind h
    · cases ht : Glob.parse t with
      | error cause => exact ⟨cause, by simpa [ht] using h.symm⟩
      | ok p => simp [ht] at h
    · obtain h | ⟨ps, -, h⟩ := error_of_bind h
      · exact ih h
      · cases h

/-- An analyzer cannot be built because of its conventions or its patterns. -/
lemma error_of_build {cwd : Path} {s : Settings} {e : Error} (h : build cwd s = .error e) :
    (∃ cause, e = .conventions cause) ∨ ∃ cause, e = .pattern cause := by
  rw [build] at h
  split at h
  · exact .inl ⟨_, (Except.error.inj h).symm⟩
  · obtain h | ⟨exclude, -, h⟩ := error_of_bind h
    · exact .inr (error_of_patterns h)
    · cases h

lemma error_of_reportOf (a : Analyzer) {files : List (Path × ByteArray)} {e : Error}
    (h : a.reportOf files = .error e) : e = .invalidText := by
  induction files with
  | nil => cases h
  | cons f files ih =>
    obtain ⟨path, content⟩ := f
    rw [reportOf] at h
    split at h
    · exact (Except.error.inj h).symm
    · obtain h | ⟨r, -, h⟩ := error_of_bind h
      · exact ih h
      · cases h

/-- A run has no result because of its root or because of the bytes in a file. -/
lemma error_of_analyze (a : Analyzer) {fs : FileTree} {e : Error} (h : a.analyze fs = .error e) :
    e = .missingRoot ∨ e = .invalidText := by
  rw [analyze] at h
  split at h
  · exact .inl (Except.error.inj h).symm
  · obtain h | ⟨r, -, h⟩ := error_of_bind h
    · exact .inr (a.error_of_reportOf h)
    · cases h

end Analyzer

namespace Cli

/-- The error of the command that checks, for an error of the analyzer. -/
def Error.ofAnalyzer : Analyzer.Error → Error
  | .conventions e => .analyzer (.conventions e)
  | .pattern e => .analyzer (.pattern e)
  | .missingRoot => .analysis .missingRoot
  | .invalidText => .analysis .invalidText

section CheckReport

variable (i : Invocation) (o : CheckOptions) (config : Config)

/-- The stages of a check fail with different errors. -/
lemma checkReport_eq_mapError :
    checkReport i o config =
      (Analyzer.build i.cwd
          ⟨some o.path, rulesFor o.rules config.conventions, o.exclude, config⟩ >>=
        fun a => a.analyze i.files).mapError .ofAnalyzer := by
  have hbuild := mapError_congr (f := Error.analyzer) (g := Error.ofAnalyzer)
    (x := Analyzer.build i.cwd
      ⟨some o.path, rulesFor o.rules config.conventions, o.exclude, config⟩) fun e he => by
    obtain ⟨cause, rfl⟩ | ⟨cause, rfl⟩ := Analyzer.error_of_build he <;> rfl
  have hanalyze : ∀ a : Analyzer, (a.analyze i.files).mapError Error.analysis =
      (a.analyze i.files).mapError Error.ofAnalyzer := fun a => mapError_congr fun e he => by
    obtain rfl | rfl := a.error_of_analyze he <;> rfl
  rw [mapError_bind, checkReport, hbuild]
  simp only [hanalyze]

/-- The configured root is of no account to a check. -/
lemma checkReport_withRoot (root : Path) :
    checkReport i o (config.withRoot root) = checkReport i o config := by
  rw [checkReport_eq_mapError, checkReport_eq_mapError, Analyzer.build_withRoot,
    config.conventions_withRoot]
  refine congrArg (Except.mapError Error.ofAnalyzer) ?_
  cases Analyzer.build i.cwd
      ⟨some o.path, rulesFor o.rules config.conventions, o.exclude, config⟩ with
  | error e => rfl
  | ok a => exact a.analyze_withRoot root i.files

/-- A check at a path with all rules is a run of the analyzer with this path as configured root. -/
lemma checkReport_eq_reportUnder (hrules : o.rules = none) :
    checkReport i o config =
      (Analyzer.reportUnder i.cwd i.files o.exclude (config.withRoot o.path)).mapError
        .ofAnalyzer := by
  rw [← checkReport_withRoot i o config o.path, checkReport_eq_mapError, hrules]
  rfl

end CheckReport

/-! ### Checks without a path -/

/-- The command line asks for a check with certain options, without a path and with all rules. -/
structure ChecksHere (i : Invocation) (explicit : Option Path) (o : CheckOptions) : Prop where
  request : request (environmentConfig? i.environment) i.args = .run explicit (.check o)
  noPath : wordsOf (scan checkFlags false (scan topFlags true i.args).2).1 = []
  allRules : o.rules = none

lemma path_of_checkCommand? {items : List Item} {o : CheckOptions}
    (h : checkCommand? items = some (.check o)) (hwords : wordsOf items = []) :
    o.path = ⟨"."⟩ := by
  have hpath : ∀ {format : Format}, (if isRepeated "rules" items then none else
      some (Command.check
        ⟨⟨"."⟩, format, (valuesOf "rules" items).head?, valuesOf "exclude" items⟩)) =
          some (.check o) → o.path = ⟨"."⟩ := by
    intro format h
    obtain ⟨-, h⟩ := Option.ite_none_left_eq_some.1 h
    cases h
    rfl
  simp only [checkCommand?, hwords, bind, Option.bind_some] at h
  split at h
  · exact hpath h
  · obtain ⟨format, -, h⟩ := Option.bind_eq_some_iff.1 h
    exact hpath h
  · cases h

lemma interruption?_ne_run {items : List Item} {config : Option Path} {command : Command} :
    interruption? items ≠ some (.run config command) := by
  intro h
  obtain ⟨item, -, h⟩ := List.exists_of_findSome?_eq_some h
  split at h <;> cases h

lemma name_of_command? {name : String} {items : List Item} {o : CheckOptions}
    (h : command? name items = some (.check o)) : name = "check" := by
  unfold command? at h
  split at h
  · rfl
  · simp at h
  · simp at h
  · cases h

/-- A request to check comes from the command of this name. -/
lemma checkCommand?_of_requestFor {environmentConfig : Option String} {top : List Item}
    {name : String} {args : List String} {explicit : Option Path} {o : CheckOptions}
    (h : requestFor environmentConfig top name args = .run explicit (.check o)) :
    checkCommand? (scan checkFlags false args).1 = some (.check o) := by
  rw [requestFor] at h
  split at h
  · split at h <;> cases h
  · next flags hflags =>
    dsimp only at h
    split at h
    · next hr => exact absurd (h ▸ hr) interruption?_ne_run
    · split at h
      · next hcommand =>
        split at h
        · cases h
        · cases h
          obtain rfl := name_of_command? hcommand
          cases hflags
          exact hcommand
      · cases h

section ChecksHere

variable {i : Invocation} {explicit : Option Path} {o : CheckOptions}

lemma ChecksHere.path_eq (h : ChecksHere i explicit o) : o.path = ⟨"."⟩ := by
  have hrequest := h.request
  simp only [Cli.request] at hrequest
  split at hrequest
  · next hr => exact absurd (hrequest ▸ hr) interruption?_ne_run
  · split at hrequest
    · exact path_of_checkCommand? (checkCommand?_of_requestFor hrequest) h.noPath
    · cases hrequest

lemma ChecksHere.run_eq (h : ChecksHere i explicit o) : run i = check i explicit o := by
  rw [run, h.request]
  rfl

end ChecksHere

/-- The outcome of a check with all rules, for what the analyzer reports. -/
def Outcome.ofReport (format : Format) : Except Analyzer.Error Report → Outcome
  | .error e => .failed [] (Error.ofAnalyzer e).message
  | .ok r => ⟨if r.hasErrors then 1 else 0, reportText format r, none, [], []⟩

/-- A check without a path reports, or fails, as the analyzer does that is given the configuration
with the current directory as root.  The root in the configuration is of no account: the check gives
the same under every other one, and what the analyzer gives under the configuration as it stands if
the root in it is the current directory. -/
theorem check_passes_over_configured_root {i : Invocation} {explicit : Option Path}
    {o : CheckOptions} (h : ChecksHere i explicit o) :
    (∀ config, checkReport i o config =
      (Analyzer.reportUnder i.cwd i.files o.exclude (config.withRoot ⟨"."⟩)).mapError
        .ofAnalyzer) ∧
    (∀ config root, checkReport i o (config.withRoot root) = checkReport i o config) ∧
    (∀ config : Config, config.discovery.root = ⟨"."⟩ →
      checkReport i o config =
        (Analyzer.reportUnder i.cwd i.files o.exclude config).mapError .ofAnalyzer) ∧
    run i =
      match loadConfig i (sourceFor i explicit ⟨"."⟩) with
      | .error e => .failed [] e.message
      | .ok config =>
        .ofReport o.format
          (Analyzer.reportUnder i.cwd i.files o.exclude (config.withRoot ⟨"."⟩)) := by
  have hreport : ∀ config, checkReport i o config =
      (Analyzer.reportUnder i.cwd i.files o.exclude (config.withRoot ⟨"."⟩)).mapError
        .ofAnalyzer := by
    intro config
    rw [checkReport_eq_reportUnder i o config h.allRules, h.path_eq]
  refine ⟨hreport, checkReport_withRoot i o, fun config hroot => ?_, ?_⟩
  · rw [hreport, ← hroot, config.withRoot_self]
  · rw [h.run_eq, check, h.path_eq, h.allRules]
    cases loadConfig i (sourceFor i explicit ⟨"."⟩) with
    | error e => rfl
    | ok config =>
      simp only [hreport]
      cases Analyzer.reportUnder i.cwd i.files o.exclude (config.withRoot ⟨"."⟩) <;> rfl

/-- The configuration names the current directory and leaves files out, and so does the command
line. -/
theorem check_passes_over_configured_root_excluded :
    let raw : Violation :=
      ⟨"AUTH001", "no-raw-convex-function", some "useAuthenticatedQuery", .error,
        ⟨⟨"a.ts"⟩, 1, 38, 37, 5⟩,
        "Use `authenticatedQuery` instead of `query` from `_generated/server`",
        some ("import `authenticatedQuery` from the auth module; its handler receives the " ++
          "resolved identity")⟩
    let text := "import\x7bquery\x7dfrom\"_generated/server\";query()"
    let i : Invocation := ⟨["check", "-fcompact", "-e", "c.*"], ⟨"/"⟩, [],
      .directory [("a.ts", .file text.toUTF8), ("b.ts", .file text.toUTF8),
        ("c.ts", .file text.toUTF8),
        ("authlint.toml", .file "[analyzer]\nroot=\".\"\nexclude=[\"b.*\"]".toUTF8)]⟩
    let o : CheckOptions := ⟨⟨"."⟩, .compact, none, ["c.*"]⟩
    let config : Config := ⟨⟨⟨"."⟩, ["b.*"], true⟩, .standard, []⟩
    ChecksHere i none o ∧ loadConfig i (sourceFor i none ⟨"."⟩) = .ok config ∧
      config.discovery.root = ⟨"."⟩ ∧
      Analyzer.reportUnder i.cwd i.files o.exclude config = .ok ⟨[raw], 1⟩ ∧
      checkReport i o config = .ok ⟨[raw], 1⟩ ∧
      run i = ⟨1, reportText .compact ⟨[raw], 1⟩, none, [], []⟩ := by
  intro raw text i o config
  have hcheck : ChecksHere i none o := ⟨by decide +kernel, by decide +kernel, rfl⟩
  have hload : loadConfig i (sourceFor i none ⟨"."⟩) = .ok config := by decide +kernel
  have hreport : Analyzer.reportUnder i.cwd i.files o.exclude config = .ok ⟨[raw], 1⟩ := by
    decide +kernel
  obtain ⟨-, -, hsame, hrun⟩ := check_passes_over_configured_root hcheck
  refine ⟨hcheck, hload, rfl, hreport, ?_, ?_⟩
  · rw [hsame config rfl, hreport]
    rfl
  · rw [hload] at hrun
    dsimp only at hrun
    rw [hrun, show config.withRoot ⟨"."⟩ = config from rfl, hreport]
    rfl

/-- The configuration names an empty directory, in which the analyzer finds nothing, but the check
finds a violation in the current directory. -/
theorem configured_root_is_not_checked :
    let raw : Violation :=
      ⟨"AUTH001", "no-raw-convex-function", some "useAuthenticatedQuery", .error,
        ⟨⟨"a.ts"⟩, 1, 38, 37, 5⟩,
        "Use `authenticatedQuery` instead of `query` from `_generated/server`",
        some ("import `authenticatedQuery` from the auth module; its handler receives the " ++
          "resolved identity")⟩
    let text := "import\x7bquery\x7dfrom\"_generated/server\";query()"
    let i : Invocation := ⟨["check"], ⟨"/"⟩, [],
      .directory [("a.ts", .file text.toUTF8), ("b", .directory []),
        ("authlint.toml", .file "[analyzer]\nroot=\"b\"\nexclude=[]".toUTF8)]⟩
    let o : CheckOptions := ⟨⟨"."⟩, .text, none, []⟩
    let config : Config := ⟨⟨⟨"b"⟩, [], true⟩, .standard, []⟩
    ChecksHere i none o ∧ loadConfig i (sourceFor i none ⟨"."⟩) = .ok config ∧
      Analyzer.reportUnder i.cwd i.files o.exclude config = .ok ⟨[], 0⟩ ∧
      checkReport i o config = .ok ⟨[raw], 1⟩ ∧ (run i).status = 1 := by
  intro raw text i o config
  have hcheck : ChecksHere i none o := ⟨by decide +kernel, by decide +kernel, rfl⟩
  have hload : loadConfig i (sourceFor i none ⟨"."⟩) = .ok config := by decide +kernel
  have hreport : checkReport i o config = .ok ⟨[raw], 1⟩ := by decide +kernel
  have hreports : Reports i none o ⟨[raw], 1⟩ := ⟨config, hload, hreport⟩
  refine ⟨hcheck, hload, by decide +kernel, hreport, ?_⟩
  rw [hcheck.run_eq, hreports.check_eq]
  rfl

end Cli

end IdentityLint
