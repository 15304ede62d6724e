import IdentityLint.Parse
import IdentityLint.Syntax.Node

/-!
Blanks and comments.

Blanks and comments may stand between any two tokens of a source text.  They are skipped in
front of a token, never behind it: after a token has been read the cursor stands at its last
byte, which makes the current offset the end of the node that was read.
-/

namespace IdentityLint.Syntax

/-- The characters that may stand between tokens. -/
def isBlank (c : Char) : Bool :=
  let n := c.toNat
  (9 ≤ n && n ≤ 13) || n == 0x20 || n == 0xA0 || n == 0x1680 || (0x2000 ≤ n && n ≤ 0x200B) ||
    n == 0x2028 || n == 0x2029 || n == 0x202F || n == 0x205F || n == 0x2060 || n == 0x3000 ||
    n == 0xFEFF

/-- The characters that end a line comment. -/
def endsLineComment (c : Char) : Bool :=
  c == '\n' || c == '\r' || c == '\u2028' || c == '\u2029'

/-- What stands in front of a token. -/
structure Trivia where
  /-- The comments, in order. -/
  comments : List Span
  /-- Is there a line feed outside the block comments? -/
  newline : Bool
  /-- Where the token begins. -/
  next : Cursor
  deriving Repr, Inhabited

/-- Where a scan through blanks and comments stands: outside comments, or inside a comment that
began at the given offset. -/
inductive TriviaMode where
  | outside
  | line (start : Nat)
  | block (start : Nat)

/-- Skips blanks and comments; fails when a block comment is not closed. -/
def skipTrivia : TriviaMode → List Span → Bool → Nat → List Char → Option Trivia
  | .outside, cs, nl, off, '/' :: '/' :: rest =>
    skipTrivia (.line off) cs nl (off + 2) rest
  | .outside, cs, nl, off, '/' :: '*' :: rest =>
    skipTrivia (.block off) cs nl (off + 2) rest
  | .outside, cs, nl, off, ch :: rest =>
    if isBlank ch then skipTrivia .outside cs (nl || ch == '\n') (off + ch.utf8Size) rest
    else some ⟨cs.reverse, nl, ⟨ch :: rest, off⟩⟩
  | .outside, cs, nl, off, [] => some ⟨cs.reverse, nl, ⟨[], off⟩⟩
  | .line start, cs, nl, off, ch :: rest =>
    if endsLineComment ch then
      skipTrivia .outside (⟨start, off⟩ :: cs) (nl || ch == '\n') (off + ch.utf8Size) rest
    else skipTrivia (.line start) cs nl (off + ch.utf8Size) rest
  | .line start, cs, nl, off, [] => some ⟨(⟨start, off⟩ :: cs).reverse, nl, ⟨[], off⟩⟩
  | .block start, cs, nl, off, '*' :: '/' :: rest =>
    skipTrivia .outside (⟨start, off + 2⟩ :: cs) nl (off + 2) rest
  | .block start, cs, nl, off, ch :: rest =>
    skipTrivia (.block start) cs nl (off + ch.utf8Size) rest
  | .block _, _, _, _, [] => none

/-- The blanks and comments at a cursor. -/
def triviaAt? (c : Cursor) : Option Trivia :=
  skipTrivia .outside [] false c.offset c.rest

namespace Token

open Parse

/-- Skips blanks and comments and returns the trivia skipped. -/
def trivia : Parse Trivia := fun c =>
  (triviaAt? c).map fun t => (t, t.next)

/-- Skips blanks and comments and returns the offset of the next token. -/
def here : Parse Nat := do
  let t ← trivia
  return t.next.offset

/-- The characters from the next token on. -/
def ahead : Parse (List Char) := fun c =>
  (triviaAt? c).map fun t => (t.next.rest, c)

/-- Is there a line feed in front of the next token? -/
def newlineAhead : Parse Bool := fun c =>
  (triviaAt? c).map fun t => (t.newline, c)

/-- Moves `n` characters ahead from the next token and returns the characters passed. -/
def take (n : Nat) : Parse (List Char) := do
  let _ ← trivia
  skip n

end Token

end IdentityLint.Syntax
