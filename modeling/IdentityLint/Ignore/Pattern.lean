import IdentityLint.Text

/-!
Patterns of ignore files.

A line of an ignore file is a pattern for paths below the directory of the file.  Wildcards do not
cross slashes, except for a double star that is a component of its own.  A pattern without a slash
matches at any depth.  Paths are compared byte by byte.
-/

namespace IdentityLint.Ignore

/-- The parts of a pattern. -/
inductive Token where
  | byte (b : UInt8)
  /-- One byte other than a slash. -/
  | any
  /-- Any bytes other than slashes. -/
  | sequence
  /-- Any directories in front. -/
  | leading
  /-- A slash and everything behind it. -/
  | trailing
  /-- A slash, or any directories between slashes. -/
  | between
  | choice (negated : Bool) (ranges : List (UInt8 × UInt8))
  deriving Repr, DecidableEq, Inhabited

/-- A part of a pattern before its braces are expanded. -/
inductive Piece where
  | token (t : Token)
  | alternatives (branches : List (List Piece))

/-! ### Reading patterns -/

/-- The bytes of a character. -/
def bytesOf (c : Char) : List UInt8 := c.toString.toUTF8.toList

/-- The slash. -/
def slash : UInt8 := 0x2F

/-- A choice of characters behind its opening bracket: the ranges, whether they are excluded,
and the text behind the closing bracket.  `none` if it is not closed, and a choice of `none` if a
range runs backwards. -/
def choice? (text : List Char) : Option (Option (Bool × List (Char × Char)) × List Char) :=
  match text with
  | '!' :: rest => go true true false [] rest
  | '^' :: rest => go true true false [] rest
  | rest => go false true false [] rest
where
  /-- Reads the members of a choice; `ranges` holds those read so far, latest first, and `open'`
  says whether the latest waits for the end of its range. -/
  go (negated first open' : Bool) (ranges : List (Char × Char)) :
      List Char → Option (Option (Bool × List (Char × Char)) × List Char)
    | [] => none
    | c :: rest =>
      if c == ']' && !first then
        let all := if open' then ('-', '-') :: ranges else ranges
        some (some (negated, all.reverse), rest)
      else if open' then
        match ranges with
        | (a, _) :: others =>
          if c < a then (go negated false false others rest).map fun r => (none, r.2)
          else go negated false false ((a, c) :: others) rest
        | [] => go negated false false ranges rest
      else if c == '-' && !first then go negated false true ranges rest
      else go negated false false ((c, c) :: ranges) rest

/-- The bytes between two characters.  Only the last byte of the first and the first byte of the
last character take part in the range itself. -/
def byteRange (r : Char × Char) : List (UInt8 × UInt8) :=
  if r.1 == r.2 then (bytesOf r.1).map fun b => (b, b)
  else
    let a := bytesOf r.1
    let b := bytesOf r.2
    (a.dropLast.map fun x => (x, x)) ++ [(a.getLast?.getD 0, b.head?.getD 0)] ++
      (b.tail.map fun x => (x, x))

/-- A level of braces under construction: the finished branches and the branch being read, both
latest first. -/
structure Level where
  branches : List (List Piece)
  pieces : List Piece

/-- Adds a token to the innermost level. -/
def push (t : Token) : List Level → List Level
  | [] => []
  | l :: ls => { l with pieces := .token t :: l.pieces } :: ls

/-- Adds the bytes of a character to the innermost level. -/
def pushChar (c : Char) (ls : List Level) : List Level :=
  (bytesOf c).foldl (fun ls b => push (.byte b) ls) ls

/-- Is nothing read yet on the innermost level? -/
def isFresh : List Level → Bool
  | [] => true
  | l :: _ => l.pieces.isEmpty

/-- Puts a double star that is a component in place of the slash in front of it. -/
def replaceSlash (t : Token) : List Level → List Level
  | [] => []
  | l :: ls =>
    match l.pieces with
    | .token .leading :: rest => { l with pieces := .token .leading :: rest } :: ls
    | .token .trailing :: rest => { l with pieces := .token .trailing :: rest } :: ls
    | _ :: rest => { l with pieces := .token t :: rest } :: ls
    | [] => { l with pieces := [.token t] } :: ls

/-- Closes the innermost level. -/
def closeLevel : List Level → Option (List Level)
  | inner :: outer :: ls =>
    let branches := (inner.pieces.reverse :: inner.branches).reverse
    some ({ outer with pieces := .alternatives branches :: outer.pieces } :: ls)
  | _ => none

/-- Begins the next branch of the innermost level. -/
def nextBranch : List Level → List Level
  | [] => []
  | l :: ls => ⟨l.pieces.reverse :: l.branches, []⟩ :: ls

/-- Is a double star between `before` and `behind` a component, and if so, which one? -/
def doubleStar (fresh nested : Bool) (before : Option Char) (behind : List Char) :
    Option Token :=
  let closed := behind.isEmpty || (nested && (behind.head? == some ',' || behind.head? == some '\x7d'))
  if fresh then
    if behind.isEmpty || behind.head? == some '/' then some .leading else none
  else if before == some '/' || (nested && (before == some ',' || before == some '\x7b')) then
    if closed then some .trailing
    else if behind.head? == some '/' then some .between
    else none
  else none

/-- Reads a pattern.  `before` is the character in front; `skipping` counts the characters that
belong to what was read last; `literal` says that an opening bracket was found not to close. -/
def read (before : Option Char) (skipping : Nat) (literal : Bool) (ls : List Level) :
    List Char → Option (List Level)
  | [] => some ls
  | c :: rest =>
    match skipping with
    | n + 1 => read (some c) n literal ls rest
    | 0 =>
      if c == '?' then read (some c) 0 literal (push .any ls) rest
      else if c == '*' then
        match rest with
        | '*' :: behind =>
          match doubleStar (isFresh ls) (1 < ls.length) before behind with
          | some .leading => read (some c) (1 + min 1 behind.length) literal (push .leading ls) rest
          | some .between => read (some c) 2 literal (replaceSlash .between ls) rest
          | some t => read (some c) 1 literal (replaceSlash t ls) rest
          | none => read (some c) 1 literal (push .sequence (push .sequence ls)) rest
        | _ => read (some c) 0 literal (push .sequence ls) rest
      else if c == '[' && !literal then
        match choice? rest with
        | none => read (some c) 0 true (pushChar c ls) rest
        | some (none, _) => none
        | some (some (negated, ranges), behind) =>
          read (some c) (rest.length - behind.length) literal
            (push (.choice negated (ranges.flatMap byteRange)) ls) rest
      else if c == '\x7b' then read (some c) 0 literal (⟨[], []⟩ :: ls) rest
      else if c == '\x7d' then
        match closeLevel ls with
        | some ls' => read (some c) 0 literal ls' rest
        | none => none
      else if c == ',' && 1 < ls.length then read (some c) 0 literal (nextBranch ls) rest
      else if c == '\\' then
        match rest with
        | d :: _ => read (some c) 1 literal (pushChar d ls) rest
        | [] => none
      else read (some c) 0 literal (pushChar c ls) rest

mutual
/-- The patterns without braces that a piece stands for. -/
def expandPiece : Piece → List (List Token)
  | .token t => [[t]]
  | .alternatives branches => expandBranches branches
/-- The patterns without braces that some branches stand for. -/
def expandBranches : List (List Piece) → List (List Token)
  | [] => []
  | b :: bs => expand b ++ expandBranches bs
/-- The patterns without braces that a sequence of pieces stands for. -/
def expand : List Piece → List (List Token)
  | [] => [[]]
  | p :: ps =>
    let tails := expand ps
    (expandPiece p).flatMap fun h => tails.map (h ++ ·)
end

/-- The patterns without braces that a text spells; `none` if it spells none. -/
def parse? (text : List Char) : Option (List (List Token)) := do
  match ← read none 0 false [⟨[], []⟩] text with
  | [l] => return expand l.pieces.reverse
  | _ => none

/-! ### Matching -/

/-- All ends of a text. -/
def tails : List UInt8 → List (List UInt8)
  | [] => [[]]
  | b :: bs => (b :: bs) :: tails bs

/-- The ends of a text that are left when bytes other than slashes are taken away. -/
def tailsToSlash : List UInt8 → List (List UInt8)
  | [] => [[]]
  | b :: bs => if b == slash then [b :: bs] else (b :: bs) :: tailsToSlash bs

/-- The ends of a text that follow a slash. -/
def tailsBehindSlash : List UInt8 → List (List UInt8)
  | [] => []
  | b :: bs => if b == slash then bs :: tailsBehindSlash bs else tailsBehindSlash bs

/-- Does a pattern match a whole text?  A double star alone matches everything. -/
def matchesBytes : List Token → List UInt8 → Bool
  | [], s => s.isEmpty
  | [.leading], _ => true
  | .sequence :: ts, s => (tailsToSlash s).any (matchesBytes ts)
  | .leading :: ts, s => (s :: tailsBehindSlash s).any (matchesBytes ts)
  | .byte a :: ts, s =>
    match s with
    | [] => false
    | b :: bs => a == b && matchesBytes ts bs
  | .any :: ts, s =>
    match s with
    | [] => false
    | b :: bs => b != slash && matchesBytes ts bs
  | .trailing :: ts, s =>
    match s with
    | [] => false
    | b :: bs => b == slash && (tails bs).any (matchesBytes ts)
  | .between :: ts, s =>
    match s with
    | [] => false
    | b :: bs => b == slash && (bs :: tailsBehindSlash bs).any (matchesBytes ts)
  | .choice negated ranges :: ts, s =>
    match s with
    | [] => false
    | b :: bs =>
      (ranges.any fun r => r.1 ≤ b && b ≤ r.2) != negated && matchesBytes ts bs

end IdentityLint.Ignore
