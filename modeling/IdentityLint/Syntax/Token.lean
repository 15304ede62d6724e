import IdentityLint.Syntax.Trivia

/-!
Tokens.

Which token stands at a place depends on the grammar around it (a slash may divide or open a
regular expression), so tokens are read on demand.  Each class of tokens with an inner
structure has a function that measures the token at the head of a text in characters; the
readers at the end of the module move the cursor over what was measured.
-/

namespace IdentityLint.Syntax

/-! ### Names -/

/-- May the character stand in a name, other than at its beginning? -/
def isNameChar (c : Char) : Bool :=
  0x20 < c.toNat && !isBlank c && !":;`\"'@#.,|^&<=>+-*/\\%?!~()[]\x7b\x7d".toList.contains c

/-- May the character begin a name? -/
def isNameStart (c : Char) : Bool := isNameChar c && !c.isDigit

/-- Where the measurement of a name stands: between characters, inside a braced escape, or
inside an escape with so many digits to go. -/
inductive NameMode where
  | plain
  | braced
  | digits (n : Nat)

/-- The number of characters of the name that a text goes on with.  An escape such as `\u0061`
is part of the name as it is written. -/
def nameLength : NameMode → List Char → Nat
  | .plain, '\\' :: 'u' :: '{' :: rest => 3 + nameLength .braced rest
  | .plain, '\\' :: 'u' :: rest => 2 + nameLength (.digits 4) rest
  | .plain, c :: rest => if isNameChar c then 1 + nameLength .plain rest else 0
  | .braced, '}' :: rest => 1 + nameLength .plain rest
  | .braced, _ :: rest => 1 + nameLength .braced rest
  | .digits (n + 1), _ :: rest =>
    1 + nameLength (if n = 0 then .plain else .digits n) rest
  | .digits 0, _ :: _ => 0
  | _, [] => 0

/-- Does a name begin here? -/
def startsName : List Char → Bool
  | '\\' :: 'u' :: _ => true
  | c :: _ => isNameStart c
  | [] => false

/-- The name at the head of a text. -/
def nameAt? (text : List Char) : Option String :=
  if startsName text then some (String.ofList (text.take (nameLength .plain text))) else none

/-- The words that are never names of variables. -/
def reservedWords : List String :=
  ["break", "case", "catch", "class", "const", "continue", "debugger", "default", "delete",
    "do", "else", "enum", "export", "extends", "false", "finally", "for", "function", "if",
    "import", "in", "instanceof", "new", "null", "return", "super", "switch", "this", "throw",
    "true", "try", "typeof", "var", "void", "while", "with"]

/-! ### Literals -/

/-- The number of characters of a string literal behind its opening quote, the closing quote
included; `none` if a line ends before the string does. -/
def stringLength? (quote : Char) : List Char → Option Nat
  | '\\' :: '\r' :: '\n' :: rest => (stringLength? quote rest).map (· + 3)
  | '\\' :: _ :: rest => (stringLength? quote rest).map (· + 2)
  | c :: rest =>
    if c == quote then some 1
    else if c == '\n' || c == '\r' then none
    else (stringLength? quote rest).map (· + 1)
  | [] => none

/-- The number of characters of the body of a regular expression, the closing slash included.
A slash inside brackets does not close it. -/
def regexLength? (inClass : Bool) : List Char → Option Nat
  | '\\' :: c :: rest => if c == '\n' then none else (regexLength? inClass rest).map (· + 2)
  | c :: rest =>
    if c == '\n' then none
    else if c == '/' && !inClass then some 1
    else
      let inClass' := if c == '[' then true else if c == ']' then false else inClass
      (regexLength? inClass' rest).map (· + 1)
  | [] => none

/-- Is the character part of a run of decimal digits, separators included? -/
def isDecimal (c : Char) : Bool := c.isDigit || c == '_'

/-- The number of characters of an exponent, or 0. -/
def exponentLength : List Char → Nat
  | e :: rest =>
    if e == 'e' || e == 'E' then
      match rest with
      | s :: ds =>
        if (s == '+' || s == '-') && (ds.head?.any Char.isDigit) then
          2 + (ds.takeWhile isDecimal).length
        else if s.isDigit then 1 + (rest.takeWhile isDecimal).length
        else 0
      | [] => 0
    else 0
  | [] => 0

/-- The number of characters of the suffix that makes an integer a big one. -/
def bigSuffixLength : List Char → Nat
  | 'n' :: _ => 1
  | _ => 0

/-- The number of characters of a number literal, or 0. -/
def numberLength : List Char → Nat
  | '.' :: rest =>
    let ds := (rest.takeWhile isDecimal).length
    if rest.head?.any Char.isDigit then 1 + ds + exponentLength (rest.drop ds) else 0
  | '0' :: c :: rest =>
    if "xXoObB".toList.contains c then
      2 + (rest.takeWhile fun d => d.isAlphanum || d == '_').length
    else decimalLength ('0' :: c :: rest)
  | c :: rest => if c.isDigit then decimalLength (c :: rest) else 0
  | [] => 0
where
  /-- The number of characters of a decimal number that begins with a digit. -/
  decimalLength (text : List Char) : Nat :=
    let ds := (text.takeWhile isDecimal).length
    match text.drop ds with
    | '.' :: rest =>
      let fs := (rest.takeWhile isDecimal).length
      ds + 1 + fs + exponentLength (rest.drop fs)
    | rest => ds + exponentLength rest + bigSuffixLength rest

/-- What ends a run of template characters. -/
inductive TemplateEnd where
  | closed
  | substitution
  deriving DecidableEq

/-- The number of characters of a template up to and including what ends the run: the closing
quote or the beginning of a substitution. -/
def templateRun? : List Char → Option (Nat × TemplateEnd)
  | '\\' :: _ :: rest => (templateRun? rest).map fun r => (r.1 + 2, r.2)
  | '`' :: _ => some (1, .closed)
  | '$' :: '{' :: _ => some (2, .substitution)
  | _ :: rest => (templateRun? rest).map fun r => (r.1 + 1, r.2)
  | [] => none

/-! ### Readers -/

namespace Token

open Parse

/-- The name at the next token, whether reserved or not.  Does not move. -/
def peekWord : Parse (Option String) := do
  return nameAt? (← ahead)

/-- Reads a name, whether reserved or not. -/
def word : Parse String := do
  match nameAt? (← ahead) with
  | some w => let _ ← take w.length; return w
  | none => failure

/-- Reads the given word. -/
def keyword (w : String) : Parse Unit := do
  let w' ← word
  require (w' == w)

/-- Reads a name that is not reserved. -/
def plainName : Parse String := do
  let w ← word
  require (!reservedWords.contains w)
  return w

/-- Do the next characters spell the given text? -/
def looksAt (s : String) : Parse Bool := do
  return s.toList.isPrefixOf (← ahead)

/-- Reads the given characters. -/
def punct (s : String) : Parse Unit := do
  require (← looksAt s)
  let _ ← take s.length

/-- Reads the first of the given texts that stands here. -/
def punctOf (choices : List String) : Parse String := do
  let text ← ahead
  match choices.find? fun s => s.toList.isPrefixOf text with
  | some s => let _ ← take s.length; return s
  | none => failure

/-- Reads an assigning equals sign, as opposed to a comparison or an arrow. -/
def assign : Parse Unit := do
  match ← ahead with
  | '=' :: '=' :: _ => failure
  | '=' :: '>' :: _ => failure
  | '=' :: _ => let _ ← take 1
  | _ => failure

/-- Reads a string literal and returns it as it is written. -/
def stringLiteral : Parse String := do
  match ← ahead with
  | q :: rest =>
    require (q == '"' || q == '\'')
    match stringLength? q rest with
    | some n =>
      let cs ← take (n + 1)
      return String.ofList cs
    | none => failure
  | [] => failure

/-- Reads a number literal. -/
def numberLiteral : Parse Unit := do
  let n := numberLength (← ahead)
  require (0 < n)
  let _ ← take n

/-- Reads a regular expression literal with its flags. -/
def regexLiteral : Parse Unit := do
  match ← ahead with
  | '/' :: rest =>
    match regexLength? false rest with
    | some n =>
      require (1 < n)
      let _ ← take (1 + n + ((rest.drop n).takeWhile Char.isLower).length)
    | none => failure
  | _ => failure

/-- Reads a private name. -/
def privateName : Parse Unit := do
  match ← ahead with
  | '#' :: rest =>
    require (startsName rest)
    let _ ← take (1 + nameLength .plain rest)
  | _ => failure

end Token

/-! ### Nodes from readers -/

namespace Token

open Parse

/-- The node of the given form that began at `start` and ends behind the last token. -/
def close (start : Nat) (form : Form) (children : List Node) : Parse Node := do
  return .mk 0 form ⟨start, ← behind⟩ children

/-- The node of form `other` around what a reader reads. -/
def asOther (p : Parse (List Node)) : Parse Node := do
  let s ← here
  let ns ← p
  close s .other ns

/-- Reads an identifier with `p` and makes it a node. -/
def identifierOf (p : Parse String) : Parse Node := do
  let s ← here
  let x ← p
  close s (.identifier x) []

/-- Reads the name of a variable.  The name `undefined` denotes a value and is no variable. -/
def variableName : Parse (List Node) := do
  let n ← identifierOf plainName
  return if n.form == .identifier "undefined" then [] else [n]

end Token

end IdentityLint.Syntax
