import IdentityLint.Cli.Arguments
import IdentityLint.Json
import IdentityLint.Report.Encoding
import IdentityLint.Rule

/-!
What the commands print.
-/

namespace IdentityLint.Cli

/-! ### Reports -/

/-- Colours of a terminal. -/
inductive Colour where
  | red
  | green
  | yellow
  | blue
  deriving Repr, DecidableEq, Inhabited

/-- The number of a colour. -/
def Colour.code : Colour → String
  | red => "31"
  | green => "32"
  | yellow => "33"
  | blue => "34"

/-- A text in a colour. -/
def coloured (c : Colour) (s : String) : String := "\x1b[" ++ c.code ++ "m" ++ s ++ "\x1b[0m"

/-- The colour of a severity. -/
def colourOf : Severity → Colour
  | .error => .red
  | .warning => .yellow
  | .info => .blue

/-- The closing line, in a colour that says how serious the violations are. -/
def summaryLine (r : Report) : String :=
  let colour :=
    if 0 < r.count .error then .red else if 0 < r.count .warning then .yellow else .green
  coloured colour r.summary ++ "\n"

/-- A violation for a terminal. -/
def violationText (v : Violation) : String :=
  v.code ++ " " ++ v.rule ++ " at " ++ v.location.render ++ "\n" ++
    "  " ++ coloured (colourOf v.severity) v.severity.name ++ ": " ++ v.message ++
    (match v.messageId with
      | some i => " (" ++ i ++ ")"
      | none => "") ++ "\n" ++
    (match v.suggestion with
      | some s => "  = help: " ++ s ++ "\n"
      | none => "") ++ "\n"

/-- A report in a format, as far as it goes to the standard output. -/
def reportText (format : Format) (r : Report) : String :=
  match format with
  | .text => String.join (r.violations.map violationText) ++ summaryLine r
  | .json => Json.render 0 r.toValueWithCounts ++ "\n"
  | .compact => String.join (r.violations.map fun v => v.render ++ "\n")
  | .pretty => summaryLine r

/-! ### Rules -/

/-- A text filled up with blanks to a width. -/
def padded (width : Nat) (s : String) : String :=
  s ++ String.ofList (List.replicate (width - s.length) ' ')

/-- A line of the table of rules. -/
def ruleRow (code name enabled description : String) : String :=
  padded 10 code ++ " " ++ padded 25 name ++ " " ++ padded 9 enabled ++ " " ++ description ++ "\n"

/-- What the table says about the rules of a kind. -/
def ruleEntry (enabled : RuleKind → Bool) (k : RuleKind) : String :=
  ruleRow k.code k.name (if enabled k then "yes" else "no") k.description ++
    padded 10 "" ++ " observes: " ++ String.intercalate ", " (k.interests.map (·.name)) ++ "\n"

/-- The table of rules. -/
def ruleTable (enabled : RuleKind → Bool) : String :=
  "Available rules:\n\n" ++ ruleRow "Code" "Name" "Enabled" "Description" ++
    String.ofList (List.replicate 80 '-') ++ "\n" ++
    String.join (RuleKind.all.map (ruleEntry enabled)) ++
    "\nUse --rules to filter specific rules, e.g.:\n" ++
    "  authlint check --rules no-raw-convex-function\n" ++
    "  authlint check --rules AUTH001,AUTH002\n"

/-! ### Help -/

/-- How the program is used. -/
def helpText : String :=
  "Authentication convention linter for Convex backends\n\n" ++
  "Usage: authlint [OPTIONS] <COMMAND>\n\n" ++
  "Commands:\n" ++
  "  check       Run lint checks\n" ++
  "  list-rules  List available rules\n" ++
  "  init        Initialize configuration file\n" ++
  "  help        Print this message or the help of the given subcommand(s)\n\n" ++
  "Options:\n" ++
  "  -v, --verbose          Enable verbose output\n" ++
  "  -c, --config <CONFIG>  Path to configuration file [env: AUTHLINT_CONFIG=]\n" ++
  "  -h, --help             Print help\n" ++
  "  -V, --version          Print version\n"

/-! ### The configuration file -/

/-- The configuration file that a new project starts with. -/
def initialConfig : String :=
  "# authlint configuration\n" ++
  "\n" ++
  "[analyzer]\n" ++
  "# Root directory to analyze (default: current directory)\n" ++
  "# root = \".\"\n" ++
  "\n" ++
  "# Glob patterns to exclude from analysis\n" ++
  "exclude = [\n" ++
  "    \"**/node_modules/**\",\n" ++
  "    \"**/_generated/**\",\n" ++
  "]\n" ++
  "\n" ++
  "# Respect .gitignore files\n" ++
  "respect_gitignore = true\n" ++
  "\n" ++
  "[conventions]\n" ++
  "# The module that defines the authenticated wrappers; never linted\n" ++
  "exempt_file = \"convex/auth.ts\"\n" ++
  "\n" ++
  "# Import paths whose raw factories are banned (substring match)\n" ++
  "server_modules = [\"_generated/server\"]\n" ++
  "\n" ++
  "# Import paths the wrappers may come from\n" ++
  "wrapper_modules = [\"./auth\", \"../auth\"]\n" ++
  "wrapper_module_substring = \"/auth\"\n" ++
  "\n" ++
  "# Member chain that must not be called inside an authenticated handler\n" ++
  "forbidden_call = [\"ctx\", \"auth\", \"getUserIdentity\"]\n" ++
  "\n" ++
  "[[conventions.banned]]\n" ++
  "raw = \"query\"\n" ++
  "wrapper = \"authenticatedQuery\"\n" ++
  "message_id = \"useAuthenticatedQuery\"\n" ++
  "\n" ++
  "[[conventions.banned]]\n" ++
  "raw = \"mutation\"\n" ++
  "wrapper = \"authenticatedMutation\"\n" ++
  "message_id = \"useAuthenticatedMutation\"\n" ++
  "\n" ++
  "# Rule configurations\n" ++
  "# Each rule can be enabled/disabled and have its severity overridden\n" ++
  "\n" ++
  "[rules.no-raw-convex-function]\n" ++
  "enabled = true\n" ++
  "# severity = \"warning\"\n" ++
  "\n" ++
  "[rules.no-ctx-identity-lookup]\n" ++
  "enabled = true\n"

/-- What is printed when the configuration file has been written. -/
def initialized : String :=
  "Created authlint.toml\n\nNext steps:\n" ++
    "  1. Edit authlint.toml to match your wrapper module\n  2. Run: authlint check\n"

end IdentityLint.Cli
