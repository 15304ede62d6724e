/-!
Operations on texts.

A text is a list of characters here, so that every operation is a recursion that proofs can
follow; `String` appears where texts are stored and printed.
-/

namespace IdentityLint.Text

/-! ### Blanks -/

/-- The characters with the Unicode property White_Space. -/
def isSpace (c : Char) : Bool :=
  let n := c.toNat
  (9 ≤ n && n ≤ 13) || n == 0x20 || n == 0x85 || n == 0xA0 || n == 0x1680 ||
    (0x2000 ≤ n && n ≤ 0x200A) || n == 0x2028 || n == 0x2029 || n == 0x202F || n == 0x205F ||
    n == 0x3000

/-- The text without the blanks at its beginning. -/
def trimStart (s : List Char) : List Char := s.dropWhile isSpace

/-- The text without the blanks at its end. -/
def trimEnd (s : List Char) : List Char := (s.reverse.dropWhile isSpace).reverse

/-- The text without the blanks at both ends. -/
def trim (s : List Char) : List Char := trimEnd (trimStart s)

/-! ### Parts -/

/-- What follows `head` in a text that begins with it. -/
def after? : List Char → List Char → Option (List Char)
  | [], s => some s
  | _ :: _, [] => none
  | c :: cs, d :: ds => if c == d then after? cs ds else none

/-- The text in front of the first occurrence of a character, and the text behind it. -/
def cut? (c : Char) : List Char → Option (List Char × List Char)
  | [] => none
  | d :: ds => if d == c then some ([], ds) else (cut? c ds).map fun r => (d :: r.1, r.2)

/-- The pieces of a text between the occurrences of a character; one more than there are
occurrences. -/
def splitAt (c : Char) : List Char → List (List Char)
  | [] => [[]]
  | d :: ds =>
    if d == c then [] :: splitAt c ds
    else
      match splitAt c ds with
      | [] => [[d]]
      | p :: ps => (d :: p) :: ps

/-- Does `part` occur in a text? -/
def contains (part : List Char) : List Char → Bool
  | [] => part.isEmpty
  | c :: cs => part.isPrefixOf (c :: cs) || contains part cs

/-- Texts joined by a separator. -/
def joined (sep : List Char) : List (List Char) → List Char
  | [] => []
  | [s] => s
  | s :: rest => s ++ sep ++ joined sep rest

/-- Is the character the lower or upper case form of the other, for ASCII letters, or the same? -/
def sameLetter (a b : Char) : Bool := a.toLower == b.toLower

/-- Are two texts the same up to the case of ASCII letters? -/
def sameLetters : List Char → List Char → Bool
  | [], [] => true
  | a :: as, b :: bs => sameLetter a b && sameLetters as bs
  | _, _ => false

/-! ### Lines -/

/-- A line without the carriage return that may precede its line feed. -/
def dropReturn (line : List Char) : List Char :=
  if line.getLast? == some '\r' then line.dropLast else line

/-- The lines of a text.  A line feed ends a line, together with a carriage return in front of
it; the text behind the last line feed is a line unless it is empty. -/
def lines (text : List Char) : List (List Char) :=
  let pieces := splitAt '\n' text
  let last := pieces.getLast?.getD []
  pieces.dropLast.map dropReturn ++ (if last.isEmpty then [] else [last])

/-! ### Positions -/

/-- A line and a column, both counted from one; columns count bytes. -/
structure Position where
  line : Nat
  column : Nat
  deriving Repr, DecidableEq, Inhabited

namespace Position

/-- The position behind a character that stands at a position. -/
def next (p : Position) (c : Char) : Position :=
  if c == '\n' then ⟨p.line + 1, 1⟩ else ⟨p.line, p.column + c.utf8Size⟩

/-- The position `offset` bytes behind a position, along a text. -/
def advance (p : Position) : List Char → Nat → Position
  | [], _ => p
  | c :: cs, offset => if offset = 0 then p else (p.next c).advance cs (offset - c.utf8Size)

/-- The position of a byte of a text. -/
def of (text : List Char) (offset : Nat) : Position := (Position.mk 1 1).advance text offset

end Position

end IdentityLint.Text
