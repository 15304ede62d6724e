import IdentityLint.Text

/-!
Allow directives.

A comment of the form

    // lint-marker allow(rule, other-rule) reason="why"

allows the rules it names on its own line and on the line below.  The marker is
`Directive.marker`; it has to follow `//`, or a slash and one or more stars, with nothing but
blanks between.  The name `all` allows every rule.
-/

namespace IdentityLint

/-- What one directive allows. -/
structure Directive where
  rules : List String
  reason : Option String
  deriving Repr, DecidableEq, Inhabited

namespace Directive

open Text

/-- The text that introduces a directive. -/
def marker : List Char := "authlint:".toList

/-- Does a comment open at the end of a text?  The text is given backwards. -/
def opensComment (before : List Char) : Bool :=
  let inner := before.dropWhile isSpace
  let unstarred := inner.dropWhile (· == '*')
  if unstarred.length < inner.length then unstarred.head? == some '/'
  else "//".toList.isPrefixOf inner

/-- The names in a comma-separated list, blanks around them and empty ones left out. -/
def names (list : List Char) : List String :=
  (((splitAt ',' list).map trim).filter (!·.isEmpty)).map String.ofList

/-- The reason that follows the list of rules. -/
def reason? (rest : List Char) : Option String := do
  let value ← after? "reason=".toList (trim rest)
  let quoted ← after? ['"'] (trim value)
  let (reason, _) ← cut? '"' quoted
  return String.ofList reason

/-- The directive spelled by the text behind a marker. -/
def ofBody? (body : List Char) : Option Directive := do
  let allowed ← after? "allow(".toList (trim body)
  let (list, rest) ← cut? ')' (trim allowed)
  if (names list).isEmpty then none
  else return ⟨names list, reason? rest⟩

/-- The first directive in a text; `before` is the text in front of it, backwards. -/
def search (before : List Char) : List Char → Option Directive
  | [] => none
  | c :: rest =>
    match after? marker (c :: rest) with
    | some body =>
      if opensComment before then
        match ofBody? body with
        | some d => some d
        | none => search (c :: before) rest
      else search (c :: before) rest
    | none => search (c :: before) rest

/-- The directive on a line. -/
def ofLine? (line : List Char) : Option Directive := search [] line

/-- Does a directive allow a rule? -/
def covers (d : Directive) (rule : String) : Bool :=
  d.rules.contains rule || d.rules.contains "all"

end Directive

/-- What the directives of a file say about a rule on a line. -/
inductive Allowance where
  | denied
  | allowed (reason : Option String)
  deriving Repr, DecidableEq, Inhabited

/-- The directives of a file, with the numbers of their lines. -/
structure Directives where
  entries : List (Nat × Directive)
  deriving Repr, DecidableEq, Inhabited

namespace Directives

/-- The directives among lines that are numbered from `first` on. -/
def ofLines (first : Nat) : List (List Char) → List (Nat × Directive)
  | [] => []
  | l :: ls =>
    match Directive.ofLine? l with
    | some d => (first, d) :: ofLines (first + 1) ls
    | none => ofLines (first + 1) ls

/-- The directives of a file with the given content. -/
def scan (content : String) : Directives := ⟨ofLines 1 (Text.lines content.toList)⟩

/-- Are there no directives? -/
def isEmpty (ds : Directives) : Bool := ds.entries.isEmpty

/-- The directive that covers a rule on a line by standing on that very line. -/
def covering? (ds : Directives) (line : Nat) (rule : String) : Option Directive :=
  match ds.entries.lookup line with
  | some d => if d.covers rule then some d else none
  | none => none

/-- What the directives say about a rule on a line: the line's own directive counts before the
one on the line above, if it covers the rule. -/
def check (ds : Directives) (line : Nat) (rule : String) : Allowance :=
  match ds.covering? line rule with
  | some d => .allowed d.reason
  | none =>
    match ds.covering? (line - 1) rule with
    | some d => .allowed d.reason
    | none => .denied

end Directives

end IdentityLint
