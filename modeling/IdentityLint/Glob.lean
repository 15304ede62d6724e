/-!
Glob patterns.

A pattern is matched against the whole text of a path.  `?` stands for any character, `*` for any
characters, slashes included, `**` for any directories, and brackets for a choice of characters.
`**` has to be a component of its own.
-/

namespace IdentityLint.Glob

/-! ### Patterns -/

/-- A member of a choice of characters. -/
inductive CharRange where
  | single (c : Char)
  | between (first last : Char)
  deriving Repr, DecidableEq, Inhabited

/-- The parts of a pattern. -/
inductive Token where
  | char (c : Char)
  | anyChar
  | anySequence
  | anyDirectories
  | within (ranges : List CharRange)
  | except (ranges : List CharRange)
  deriving Repr, DecidableEq, Inhabited

/-- A pattern. -/
abbrev Pattern : Type := List Token

/-- What is wrong with a pattern. -/
inductive Fault where
  | wildcards
  | directories
  | range
  deriving Repr, DecidableEq, Inhabited

/-- What is wrong with a pattern, and near which of its characters. -/
structure Error where
  position : Nat
  fault : Fault
  deriving Repr, DecidableEq, Inhabited

/-- The wording of a fault. -/
def Fault.message : Fault → String
  | wildcards => "wildcards are either regular `*` or recursive `**`"
  | directories => "recursive wildcards must form a single path component"
  | range => "invalid range pattern"

/-- The wording of an error. -/
def Error.message (e : Error) : String :=
  "Pattern syntax error near position " ++ toString e.position ++ ": " ++ e.fault.message

/-! ### Reading patterns -/

/-- The choice that a text between brackets spells. -/
def ranges : List Char → List CharRange
  | a :: '-' :: b :: rest => .between a b :: ranges rest
  | a :: rest => .single a :: ranges rest
  | [] => []

/-- A choice of characters behind its opening bracket, and the number of characters it takes up
with both brackets.  The first character of the choice may be a closing bracket. -/
def choice? : List Char → Option (Token × Nat)
  | '!' :: first :: rest =>
    let tail := rest.takeWhile (· != ']')
    if tail.length < rest.length then
      some (.except (ranges (first :: tail)), tail.length + 4)
    else none
  | '!' :: [] => none
  | first :: rest =>
    let tail := rest.takeWhile (· != ']')
    if tail.length < rest.length then
      some (.within (ranges (first :: tail)), tail.length + 3)
    else none
  | [] => none

/-- Does a stretch of stars that is preceded by `before` and followed by `behind` make up a
component? -/
def isComponent (before : Option Char) (behind : List Char) : Bool :=
  (before.isNone || before == some '/') && (behind.isEmpty || behind.head? == some '/')

/-- Reads the rest of a pattern: `position` is the number of characters read, `before` the last
of them, and `skipping` the number of characters that belong to the last token. -/
def read (position : Nat) (before : Option Char) (skipping : Nat) :
    List Char → Except Error Pattern
  | [] => .ok []
  | c :: rest =>
    match skipping with
    | n + 1 => read (position + 1) (some c) n rest
    | 0 =>
      if c == '?' then (Token.anyChar :: ·) <$> read (position + 1) (some c) 0 rest
      else if c == '*' then
        let more := (rest.takeWhile (· == '*')).length
        if 1 < more then .error ⟨position + 2, .wildcards⟩
        else if more == 1 then
          let behind := rest.drop 1
          if isComponent before behind then
            (Token.anyDirectories :: ·) <$>
              read (position + 1) (some c) (if behind.isEmpty then 1 else 2) rest
          else if before.isNone || before == some '/' then .error ⟨position + 2, .directories⟩
          else .error ⟨position - 1, .directories⟩
        else (Token.anySequence :: ·) <$> read (position + 1) (some c) 0 rest
      else if c == '[' then
        match choice? rest with
        | some (t, n) => (t :: ·) <$> read (position + 1) (some c) (n - 1) rest
        | none => .error ⟨position, .range⟩
      else (Token.char c :: ·) <$> read (position + 1) (some c) 0 rest

/-- The pattern that a text spells. -/
def parse (text : String) : Except Error Pattern := read 0 none 0 text.toList

/-! ### Matching -/

/-- Does a member of a choice cover a character? -/
def CharRange.covers (c : Char) : CharRange → Bool
  | single a => c == a
  | between a b => a ≤ c && c ≤ b

/-- All ends of a text, the longest first. -/
def tails : List Char → List (List Char)
  | [] => [[]]
  | c :: cs => (c :: cs) :: tails cs

/-- The ends of a text that follow a slash. -/
def tailsBehindSlash : List Char → List (List Char)
  | [] => []
  | '/' :: cs => cs :: tailsBehindSlash cs
  | _ :: cs => tailsBehindSlash cs

/-- Does a pattern match a whole text? -/
def matchesText : Pattern → List Char → Bool
  | [], s => s.isEmpty
  | .anySequence :: ts, s => (tails s).any (matchesText ts)
  | .anyDirectories :: ts, s => (s :: [] :: tailsBehindSlash s).any (matchesText ts)
  | .anyChar :: ts, s =>
    match s with
    | [] => false
    | _ :: cs => matchesText ts cs
  | .char a :: ts, s =>
    match s with
    | [] => false
    | c :: cs => c == a && matchesText ts cs
  | .within rs :: ts, s =>
    match s with
    | [] => false
    | c :: cs => rs.any (·.covers c) && matchesText ts cs
  | .except rs :: ts, s =>
    match s with
    | [] => false
    | c :: cs => !rs.any (·.covers c) && matchesText ts cs

end IdentityLint.Glob
