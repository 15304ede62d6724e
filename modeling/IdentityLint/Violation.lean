import IdentityLint.Path

/-!
Violations: what a rule reports, where, and how it is written out.
-/

namespace IdentityLint

/-- How serious a violation is. -/
inductive Severity where
  | info
  | warning
  | error
  deriving Repr, DecidableEq, Inhabited

namespace Severity

/-- The name of a severity. -/
def name : Severity → String
  | info => "info"
  | warning => "warning"
  | error => "error"

/-- The severity with a given name. -/
def ofName? : String → Option Severity
  | "info" => some info
  | "warning" => some warning
  | "error" => some error
  | _ => none

/-- The rank of a severity, growing with seriousness. -/
def rank : Severity → Nat
  | info => 0
  | warning => 1
  | error => 2

/-- Is a severity at least as serious as a threshold? -/
def atLeast (s threshold : Severity) : Bool := threshold.rank ≤ s.rank

end Severity

/-- A place in a file.  Lines and columns are counted from one; `offset` and `length` count
bytes. -/
structure Location where
  file : Path
  line : Nat
  column : Nat
  offset : Nat
  length : Nat
  deriving Repr, DecidableEq, Inhabited

namespace Location

/-- The place as users read it. -/
def render (l : Location) : String :=
  l.file.text ++ ":" ++ toString l.line ++ ":" ++ toString l.column

/-- The order of places: by file, then line, then column. -/
def compare (a b : Location) : Ordering :=
  (a.file.compare b.file).then <|
    (Ord.compare a.line b.line).then (Ord.compare a.column b.column)

end Location

/-- A violation of a rule. -/
structure Violation where
  /-- The code of the rule. -/
  code : String
  /-- The name of the rule. -/
  rule : String
  /-- An identifier of the message that stays the same when its wording changes. -/
  messageId : Option String
  severity : Severity
  location : Location
  message : String
  /-- Advice on how to mend the violation. -/
  suggestion : Option String
  deriving Repr, DecidableEq, Inhabited

namespace Violation

/-- The violation on one line. -/
def render (v : Violation) : String :=
  v.location.render ++ ": " ++ v.severity.name ++ " [" ++ v.code ++ "] " ++ v.message ++
    match v.messageId with
    | some i => " (" ++ i ++ ")"
    | none => ""

/-- The violation as a paragraph. -/
def paragraph (v : Violation) : String :=
  v.code ++ " " ++ v.rule ++ " at " ++ v.location.render ++ "\n" ++
    "  " ++ v.severity.name ++ ": " ++ v.message ++ "\n" ++
    match v.suggestion with
    | some s => "  = help: " ++ s ++ "\n"
    | none => ""

end Violation

/-- A violation as an editor shows it: a message, advice, and a label at a span. -/
structure Diagnostic where
  message : String
  help : Option String
  offset : Nat
  length : Nat
  label : String
  deriving Repr, DecidableEq, Inhabited

/-- How an editor shows a violation.  The label is the identifier of the message, or the name of
the rule if there is none. -/
def Violation.diagnostic (v : Violation) : Diagnostic where
  message := "[" ++ v.code ++ "] " ++ v.message
  help := v.suggestion
  offset := v.location.offset
  length := v.location.length
  label := v.messageId.getD v.rule

end IdentityLint
