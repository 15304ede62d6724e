import IdentityLint.Analyzer
import IdentityLint.Cli.ConfigLookup
import IdentityLint.Cli.Output
import IdentityLint.Config.Toml

/-!
The commands.

A run of the program takes the arguments, the environment and the file system, and yields what it
prints, its exit status, and the files to be written.
-/

namespace IdentityLint.Cli

/-- Everything that a run depends on. -/
structure Invocation where
  args : List String
  /-- The current directory, an absolute path. -/
  cwd : Path
  environment : List (String × String)
  files : FileTree

/-- Everything that a run brings about. -/
structure Outcome where
  status : Nat
  output : String
  /-- The reason why the run failed. -/
  error : Option String
  warnings : List String
  /-- The files to be written, with their contents. -/
  written : List (Path × String)
  deriving Repr, DecidableEq, Inhabited

namespace Outcome

/-- The outcome of a run that fails for a reason, after some warnings. -/
def failed (warnings : List String) (reason : String) : Outcome := ⟨1, "", some reason, warnings, []⟩

/-- The outcome of a run that only prints a text. -/
def printed (text : String) : Outcome := ⟨0, text, none, [], []⟩

/-- The outcome of a run that is stopped by a misuse of the command line. -/
def misused : Outcome := ⟨2, "", none, [], []⟩

end Outcome

/-- The files behind a run. -/
def Invocation.filesAfter (i : Invocation) (o : Outcome) : FileTree :=
  o.written.foldl write i.files
where
  /-- The files with a text written to a path in the current directory. -/
  write (fs : FileTree) (w : Path × String) : FileTree :=
    match fs.canonical? i.cwd ⟨"."⟩, w.1.fileName? with
    | some dir, some name => fs.put (dir ++ [name]) (.file w.2.toUTF8)
    | _, _ => fs

/-- Why a command failed. -/
inductive Error where
  | config (path : Path)
  | analyzer (cause : Analyzer.Error)
  | analysis (cause : Analyzer.Error)
  | exists (path : Path)
  | write (path : Path)
  deriving Repr, DecidableEq

/-- The wording of an error. -/
def Error.message : Error → String
  | .config p => "Failed to load config: " ++ p.text
  | .analyzer _ => "Failed to build analyzer"
  | .analysis _ => "Analysis failed"
  | .exists p =>
    "Configuration file already exists at " ++ p.text ++ ". Use --force to overwrite."
  | .write p => "Failed to write " ++ p.text

/-- Loads a configuration. -/
def loadConfig (i : Invocation) (source : ConfigSource) : Except Error Config :=
  match source.path? with
  | none => .ok .standard
  | some p =>
    match ((i.files.find? i.cwd p).bind FileTree.text?).bind Config.ofToml? with
    | some c => .ok c
    | none => .error (.config p)

/-- Where the configuration for a target comes from. -/
def sourceFor (i : Invocation) (explicit : Option Path) (target : Path) : ConfigSource :=
  configSource i.files i.cwd i.environment explicit target

/-! ### Checking -/

/-- The names in a comma-separated list of rules. -/
def filterNames (filter : String) : List String :=
  (((Text.splitAt ',' filter.toList).map Text.trim).filter (!·.isEmpty)).map String.ofList

/-- The rules to run. -/
def rulesFor (filter : Option String) (conventions : Conventions) : List Rule :=
  match filter with
  | none => Rule.all conventions
  | some f => (filterNames f).filterMap (Rule.ofKey? · conventions)

/-- A warning for each name in a filter that no rule has. -/
def filterWarnings (filter : Option String) : List String :=
  match filter with
  | none => []
  | some f =>
    ((filterNames f).filter fun n => (RuleKind.ofKey? n).isNone).map ("Unknown rule: " ++ ·)

/-- The report of a check under a configuration. -/
def checkReport (i : Invocation) (o : CheckOptions) (config : Config) : Except Error Report := do
  let settings : Analyzer.Settings :=
    ⟨some o.path, rulesFor o.rules config.conventions, o.exclude, config⟩
  let a ← (Analyzer.build i.cwd settings).mapError .analyzer
  (a.analyze i.files).mapError .analysis

/-- Checks the sources at a path. -/
def check (i : Invocation) (explicit : Option Path) (o : CheckOptions) : Outcome :=
  match loadConfig i (sourceFor i explicit o.path) with
  | .error e => .failed [] e.message
  | .ok config =>
    let warnings := filterWarnings o.rules
    match checkReport i o config with
    | .error e => .failed warnings e.message
    | .ok r => ⟨if r.hasErrors then 1 else 0, reportText o.format r, none, warnings, []⟩

/-! ### The other commands -/

/-- The rules that are enabled under a configuration. -/
def enabledNames (i : Invocation) (explicit : Option Path) : Except Error (List String) := do
  let config ← loadConfig i (sourceFor i explicit ⟨"."⟩)
  let settings : Analyzer.Settings := ⟨none, Rule.all config.conventions, [], config⟩
  let a ← (Analyzer.build i.cwd settings).mapError .analyzer
  return a.enabledRules.map Rule.name

/-- Lists the rules. -/
def listRules (i : Invocation) (explicit : Option Path) : Outcome :=
  match enabledNames i explicit with
  | .error e => .failed [] e.message
  | .ok names => .printed (ruleTable fun k => names.contains k.name)

/-- The path at which the configuration file of a new project is written. -/
def initialConfigPath : Path := ⟨"./authlint.toml"⟩

/-- Writes the configuration file of a new project.  A file that is there already is overwritten
only on demand, a directory never. -/
def init (i : Invocation) (force : Bool) : Outcome :=
  let written : Outcome := { Outcome.printed initialized with
    written := [(initialConfigPath, initialConfig)] }
  match i.files.find? i.cwd initialConfigPath with
  | none => written
  | some t =>
    if !force then .failed [] (Error.exists initialConfigPath).message
    else if t.isFile then written
    else .failed [] (Error.write initialConfigPath).message

/-- Runs a command. -/
def runCommand (i : Invocation) (config : Option Path) : Command → Outcome
  | .check o => check i config o
  | .listRules => listRules i config
  | .init force => init i force

/-- The name and version of the program. -/
def versionText : String := "authlint 0.2.0\n"

/-- The file that the environment names as configuration. -/
def environmentConfig? (environment : List (String × String)) : Option String :=
  environment.lookup "AUTHLINT_CONFIG"

/-- Runs the program. -/
def run (i : Invocation) : Outcome :=
  match request (environmentConfig? i.environment) i.args with
  | .run config command => runCommand i config command
  | .version => .printed versionText
  | .help => .printed helpText
  | .misuse => .misused

end IdentityLint.Cli
