import IdentityLint.Check
import IdentityLint.Config
import IdentityLint.Discovery
import IdentityLint.Glob
import IdentityLint.Report
import IdentityLint.Suppression

/-!
The analyzer: which rules look at which files, and what comes of it.
-/

namespace IdentityLint

/-- An analyzer that is ready to run. -/
structure Analyzer where
  /-- The directory or file to analyze, an absolute path. -/
  root : Path
  rules : List Rule
  /-- Patterns of files to leave out. -/
  exclude : List Glob.Pattern
  config : Config
  deriving Repr, Inhabited

namespace Analyzer

/-- Why an analyzer cannot be built or a run has no result. -/
inductive Error where
  | conventions (cause : Conventions.Error)
  | pattern (cause : Glob.Error)
  /-- The root does not exist. -/
  | missingRoot
  /-- A source file is not valid UTF-8. -/
  | invalidText
  deriving Repr, DecidableEq

/-- The wording of an error. -/
def Error.message : Error → String
  | .conventions e => "Configuration error: " ++ e.message
  | .pattern e => "Invalid glob pattern: " ++ e.message
  | .missingRoot => "Walk error: the root does not exist"
  | .invalidText => "IO error: stream did not contain valid UTF-8"

/-! ### Building -/

/-- Settings from which an analyzer is built. -/
structure Settings where
  /-- The root; without one, the configured root. -/
  root : Option Path
  rules : List Rule
  /-- Patterns of files to leave out, besides the configured ones. -/
  exclude : List String
  config : Config
  deriving Repr, Inhabited

/-- The patterns that texts spell, or the error in the first one that spells none. -/
def patterns (texts : List String) : Except Error (List Glob.Pattern) :=
  texts.mapM fun t =>
    match Glob.parse t with
    | .ok p => .ok p
    | .error e => .error (.pattern e)

/-- Builds an analyzer for a run in the directory `cwd`. -/
def build (cwd : Path) (s : Settings) : Except Error Analyzer :=
  match s.config.conventions.error? with
  | some e => .error (.conventions e)
  | none => do
    let root := s.root.getD s.config.discovery.root
    let exclude ← patterns (s.exclude ++ s.config.discovery.exclude)
    return ⟨if root.isAbsolute then root else cwd.join root, s.rules, exclude, s.config⟩

/-- The rules that are not disabled. -/
def enabledRules (a : Analyzer) : List Rule := a.rules.filter (a.config.isEnabled ·.name)

/-! ### One file -/

/-- The violations of a rule with the severity that its settings ask for. -/
def withSeverity (a : Analyzer) (rule : Rule) (vs : List Violation) : List Violation :=
  match a.config.severity? rule.name with
  | some s => vs.map ({ · with severity := s })
  | none => vs

/-- Does a violation come before another in a file?  It does if it begins earlier, or at the same
place and is longer. -/
def precedes (v w : Violation) : Bool :=
  v.location.offset < w.location.offset ||
    (v.location.offset == w.location.offset && w.location.length ≤ v.location.length)

/-- What the check of a rule has found, behind directives and settings. -/
def verdicts (a : Analyzer) (ds : Directives) (rule : Rule) (c : Check) : List Violation :=
  a.withSeverity rule (rule.suppress ds c.found)

/-- The enabled rules that apply to a file, and the check of each of them. -/
def startAll (a : Analyzer) (file : SourceFile) : List Rule × List Check :=
  (a.enabledRules.filterMap fun r => (Check.start? r file).map fun c => (r, c)).unzip

/-- The violations in a file, in the order of their places. -/
def checkFile (a : Analyzer) (file : SourceFile) : List Violation :=
  let (active, checks) := a.startAll file
  if checks.isEmpty then []
  else
    let ds := Directives.scan file.content
    ((active.zip (Check.runAll file checks)).flatMap fun p =>
      a.verdicts ds p.1 p.2).mergeSort precedes

/-- The violations in a file with a path and a content. -/
def checkSource (a : Analyzer) (path : Path) (content : String) : List Violation :=
  a.checkFile (.new path content a.root)

/-! ### All files -/

/-- The extensions of source files. -/
def sourceExtensions : List String := ["ts", "tsx", "mts", "cts", "js", "jsx"]

/-- Is it the path of a source file? -/
def isSource (p : Path) : Bool := p.extension?.any sourceExtensions.contains

/-- Is a file to be left out?  A pattern may match its path or its path relative to the root. -/
def excludes (a : Analyzer) (p : Path) : Bool :=
  a.exclude.any fun g =>
    Glob.matchesText g p.text.toList || Glob.matchesText g (p.relativeTo a.root).text.toList

/-- The source files to analyze, in the order of their paths. -/
def sources? (a : Analyzer) (fs : FileTree) : Option (List (Path × ByteArray)) := do
  let files ← Discovery.files? a.config.discovery.respectGitignore fs a.root
  let kept := files.filter fun f => isSource f.1 && !a.excludes f.1
  return kept.mergeSort fun f g => (f.1.compare g.1).isLE

/-- The report of the files given. -/
def reportOf (a : Analyzer) : List (Path × ByteArray) → Except Error Report
  | [] => .ok .empty
  | (path, content) :: rest =>
    match String.fromUTF8? content with
    | none => .error .invalidText
    | some text => do
      let r ← a.reportOf rest
      return ⟨a.checkSource path text ++ r.violations, r.filesChecked + 1⟩

/-- Analyzes all source files below the root. -/
def analyze (a : Analyzer) (fs : FileTree) : Except Error Report :=
  match a.sources? fs with
  | none => .error .missingRoot
  | some files => do
    let r ← a.reportOf files
    return r.sorted

end Analyzer

end IdentityLint
