import IdentityLint.Syntax.Token

/-!
Looking past brackets.

Whether a parenthesis opens the parameters of an arrow function, or a brace a pattern, shows
only behind the matching bracket.  `behindBracket?` finds that place by skimming over the text
between: it knows strings, templates, comments and regular expressions, and nothing else of
the grammar, so it takes one pass.
-/

namespace IdentityLint.Syntax

/-- What a skim has open: a bracket, or a template it will return to. -/
inductive Opened where
  | bracket
  | template
  deriving DecidableEq

/-- What a skim is inside of. -/
inductive SkimMode where
  | code
  | quoted (quote : Char)
  | line
  | block
  | template
  | regex (inClass : Bool)

/-- May a slash behind the given character open a regular expression?  It does unless an
operand ends there. -/
def slashOpensRegex (previous : Char) : Bool :=
  "(,=:[!&|?\x7b\x7d;+-*%<>~^\n".toList.contains previous

/-- Skims through `opened` brackets; `previous` is the last character that was not a blank.
Returns the text behind the bracket that closes the outermost one. -/
def skim : SkimMode → List Opened → Char → List Char → Option (List Char)
  | .code, opened, previous, c :: rest =>
    if c == '/' then
      match rest with
      | '/' :: more => skim .line opened previous more
      | '*' :: more => skim .block opened previous more
      | more =>
        if slashOpensRegex previous then skim (.regex false) opened c more
        else skim .code opened c more
    else if c == '"' || c == '\'' then skim (.quoted c) opened c rest
    else if c == '`' then skim .template opened c rest
    else if c == '(' || c == '[' || c == '{' then skim .code (.bracket :: opened) c rest
    else if c == ')' || c == ']' || c == '}' then
      match opened with
      | [] => none
      | [_] => some rest
      | .template :: below => skim .template below c rest
      | .bracket :: below => skim .code below c rest
    else skim .code opened (if isBlank c then previous else c) rest
  | .quoted q, opened, previous, '\\' :: _ :: rest => skim (.quoted q) opened previous rest
  | .quoted q, opened, previous, c :: rest =>
    if c == q then skim .code opened c rest
    else if c == '\n' then none
    else skim (.quoted q) opened previous rest
  | .line, opened, previous, c :: rest =>
    if endsLineComment c then skim .code opened previous rest
    else skim .line opened previous rest
  | .block, opened, previous, '*' :: '/' :: rest => skim .code opened previous rest
  | .block, opened, previous, _ :: rest => skim .block opened previous rest
  | .template, opened, previous, '\\' :: _ :: rest => skim .template opened previous rest
  | .template, opened, _, '`' :: rest => skim .code opened '`' rest
  | .template, opened, _, '$' :: '{' :: rest => skim .code (.template :: opened) '{' rest
  | .template, opened, previous, _ :: rest => skim .template opened previous rest
  | .regex inClass, opened, previous, '\\' :: _ :: rest =>
    skim (.regex inClass) opened previous rest
  | .regex inClass, opened, previous, c :: rest =>
    if c == '/' && !inClass then skim .code opened c rest
    else if c == '\n' then none
    else
      skim (.regex (if c == '[' then true else if c == ']' then false else inClass)) opened
        previous rest
  | _, _, _, [] => none

/-- The text behind the bracket that matches the one at the head of a text. -/
def behindBracket? : List Char → Option (List Char)
  | c :: rest => if c == '(' || c == '[' || c == '{' then skim .code [.bracket] c rest else none
  | [] => none

/-- The first characters of a text behind blanks and comments. -/
def firstToken (text : List Char) : List Char :=
  match triviaAt? ⟨text, 0⟩ with
  | some t => t.next.rest
  | none => []

namespace Token

open Parse

/-- The text that follows the bracket group at the next token; empty if there is none. -/
def behindGroup : Parse (List Char) := do
  match behindBracket? (← ahead) with
  | some rest => return firstToken rest
  | none => return []

end Token

end IdentityLint.Syntax
