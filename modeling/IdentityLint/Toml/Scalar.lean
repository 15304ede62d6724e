import IdentityLint.Parse
import IdentityLint.Value

/-!
Scalars of configuration files: texts, numbers, truth values, dates and times.
-/

namespace IdentityLint.Toml

open Parse

/-! ### Characters -/

/-- Reads a character that passes a test. -/
def satisfy (p : Char → Bool) : Parse Char := do
  match ← rest with
  | c :: _ =>
    require (p c)
    let _ ← skip 1
    return c
  | [] => failure

/-- Reads the given character. -/
def char (c : Char) : Parse Unit := discard (satisfy (· == c))

/-- Reads the given characters. -/
def symbol (s : String) : Parse Unit := do
  require (s.toList.isPrefixOf (← rest))
  let _ ← skip s.length

/-- Reads the characters that pass a test, as far as they go. -/
def run (p : Char → Bool) : Parse (List Char) := do
  skip ((← rest).takeWhile p).length

/-- Reads `n` characters that pass a test. -/
def exactly (n : Nat) (p : Char → Bool) : Parse (List Char) := do
  let cs := (← rest).take n
  require (cs.length == n && cs.all p)
  skip n

/-- Reads a line break. -/
def newline : Parse Unit := symbol "\n" <|> symbol "\r\n"

/-- The characters that may stand between the parts of a line. -/
def isBlank (c : Char) : Bool := c == ' ' || c == '\t'

/-- Skips blanks. -/
def blanks : Parse Unit := discard (run isBlank)

/-- Is the character allowed in comments and literal texts?  Control characters other than the
tab are not. -/
def isPlain (c : Char) : Bool := c == '\t' || (0x20 ≤ c.toNat && c.toNat != 0x7F)

/-- Reads a comment. -/
def comment : Parse Unit := do
  char '#'
  let _ ← run isPlain

/-! ### Texts -/

/-- Is the character a digit in hexadecimal? -/
def isHexDigit (c : Char) : Bool :=
  c.isDigit || ('a' ≤ c && c ≤ 'f') || ('A' ≤ c && c ≤ 'F')

/-- The value of a digit in hexadecimal. -/
def hexValue (c : Char) : Nat :=
  if c.isDigit then c.toNat - '0'.toNat
  else if 'a' ≤ c then c.toNat - 'a'.toNat + 10
  else c.toNat - 'A'.toNat + 10

/-- The number that digits in hexadecimal stand for. -/
def hexNumber (ds : List Char) : Nat := ds.foldl (fun n d => 16 * n + hexValue d) 0

/-- Reads a code point of `n` digits in hexadecimal. -/
def codePoint (n : Nat) : Parse Char := do
  let v := hexNumber (← exactly n isHexDigit)
  require (v < 0xD800 || (0xDFFF < v && v < 0x110000))
  return Char.ofNat v

/-- Reads what follows the backslash of an escape. -/
def escaped : Parse Char :=
  (char 'b' *> pure '\x08') <|> (char 't' *> pure '\t') <|> (char 'n' *> pure '\n') <|>
  (char 'f' *> pure '\x0c') <|> (char 'r' *> pure '\r') <|> (char '"' *> pure '"') <|>
  (char '\\' *> pure '\\') <|> (char 'u' *> codePoint 4) <|> (char 'U' *> codePoint 8)

/-- Reads a character of a text in double quotes. -/
def basicChar : Parse Char :=
  satisfy (fun c => isPlain c && c != '"' && c != '\\') <|> (char '\\' *> escaped)

/-- Reads a text in double quotes. -/
def basicText : Parse String := do
  char '"'
  let cs ← many basicChar
  char '"'
  return String.ofList cs

/-- Reads a text in single quotes, in which nothing is escaped. -/
def literalText : Parse String := do
  char '\''
  let cs ← run fun c => isPlain c && c != '\''
  char '\''
  return String.ofList cs

/-- Reads a line break as a line feed. -/
def lineFeed : Parse (List Char) := newline *> pure ['\n']

/-- Reads a backslash at the end of a line together with all blanks and line breaks behind it. -/
def continuation : Parse (List Char) := do
  char '\\'
  blanks
  newline
  let _ ← many (newline <|> discard (satisfy isBlank))
  return []

/-- Reads one or two quotes that do not close a text of several lines. -/
def innerQuotes (q : Char) : Parse (List Char) := do
  let n := ((← rest).takeWhile (· == q)).length
  require (n == 1 || n == 2)
  skip n

/-- Reads the quotes that close a text of several lines; up to two quotes in front of them
belong to the text. -/
def closingQuotes (q : Char) : Parse (List Char) := do
  let n := ((← rest).takeWhile (· == q)).length
  require (3 ≤ n && n ≤ 5)
  let cs ← skip n
  return cs.drop 3

/-- Reads a text of several lines between three quotes; `piece` reads what stands between
quotes.  A line break behind the opening quotes does not count. -/
def longText (q : Char) (piece : Parse (List Char)) : Parse String := do
  symbol (String.ofList [q, q, q])
  let _ ← attempt newline
  let cs ← many (piece <|> innerQuotes q)
  let last ← closingQuotes q
  return String.ofList (cs.flatten ++ last)

/-- Reads a text of several lines in double quotes. -/
def longBasicText : Parse String :=
  longText '"' ((do return [← basicChar]) <|> lineFeed <|> continuation)

/-- Reads a text of several lines in single quotes. -/
def longLiteralText : Parse String :=
  longText '\'' ((do return [← satisfy fun c => isPlain c && c != '\'']) <|> lineFeed)

/-- Reads a text. -/
def text : Parse String := longBasicText <|> longLiteralText <|> basicText <|> literalText

/-! ### Numbers -/

/-- Reads digits with underscores between them. -/
def digits (isDigit : Char → Bool) : Parse (List Char) := do
  let first ← satisfy isDigit
  let others ← many (attempt (char '_') *> satisfy isDigit)
  return first :: others

/-- The number that digits stand for. -/
def decimalNumber (ds : List Char) : Nat := ds.foldl (fun n d => 10 * n + hexValue d) 0

/-- The integers that can be written: those of 64 bits. -/
def integerInRange (n : Int) : Parse Value := do
  require (-0x8000000000000000 ≤ n && n ≤ 0x7FFFFFFFFFFFFFFF)
  return .integer n

/-- Reads a sign and returns whether it is a minus. -/
def sign : Parse Bool := optionD false ((char '-' *> pure true) <|> (char '+' *> pure false))

/-- Reads decimal digits without a superfluous leading zero. -/
def decimalDigits : Parse (List Char) := do
  let ds ← digits Char.isDigit
  require (ds.length == 1 || ds.head? != some '0')
  return ds

/-- Reads an integer with a marked base. -/
def basedInteger : Parse Value :=
  (symbol "0x" *> do integerInRange (hexNumber (← digits isHexDigit))) <|>
  (symbol "0o" *> do
    let ds ← digits fun c => '0' ≤ c && c ≤ '7'
    integerInRange (ds.foldl (fun n d => 8 * n + hexValue d) 0 : Nat)) <|>
  (symbol "0b" *> do
    let ds ← digits fun c => c == '0' || c == '1'
    integerInRange (ds.foldl (fun n d => 2 * n + hexValue d) 0 : Nat))

/-- Reads a decimal integer. -/
def decimalInteger : Parse Value := do
  let negative ← sign
  let n : Nat := decimalNumber (← decimalDigits)
  integerInRange (if negative then -(n : Int) else n)

/-- Reads an exponent. -/
def exponent : Parse Unit := do
  char 'e' <|> char 'E'
  let _ ← sign
  let _ ← digits Char.isDigit

/-- Reads a number with a fraction or an exponent, or one that is no number. -/
def float : Parse Value := do
  let _ ← sign
  (symbol "inf" <|> symbol "nan") <|>
  (do
    let _ ← decimalDigits
    exponent <|>
    (do
      char '.'
      let _ ← digits Char.isDigit
      let _ ← attempt exponent))
  return .fraction

/-! ### Dates and times -/

/-- Reads a number of `n` digits between bounds. -/
def bounded (n low high : Nat) : Parse Nat := do
  let v := decimalNumber (← exactly n Char.isDigit)
  require (low ≤ v && v ≤ high)
  return v

/-- The number of days of a month. -/
def daysIn (year month : Nat) : Nat :=
  if month == 2 then
    if year % 4 == 0 && (year % 100 != 0 || year % 400 == 0) then 29 else 28
  else if month == 4 || month == 6 || month == 9 || month == 11 then 30
  else 31

/-- Reads a date. -/
def date : Parse Unit := do
  let year ← bounded 4 0 9999
  char '-'
  let month ← bounded 2 1 12
  char '-'
  let _ ← bounded 2 1 (daysIn year month)

/-- Reads a time of day. -/
def time : Parse Unit := do
  let _ ← bounded 2 0 23
  char ':'
  let _ ← bounded 2 0 59
  char ':'
  let _ ← bounded 2 0 60
  let _ ← attempt do
    char '.'
    let _ ← satisfy Char.isDigit
    run Char.isDigit

/-- Reads the offset of a time zone. -/
def zone : Parse Unit :=
  char 'Z' <|> char 'z' <|>
  (do
    char '+' <|> char '-'
    let _ ← bounded 2 0 23
    char ':'
    let _ ← bounded 2 0 59)

/-- Reads a date, a time, or both. -/
def moment : Parse Value := do
  (do
    date
    let _ ← attempt do
      char 'T' <|> char 't' <|> char ' '
      time
      let _ ← attempt zone) <|>
  time
  return .moment

/-- Reads a scalar. -/
def scalar : Parse Value :=
  (do return .text (← text)) <|>
  (symbol "true" *> pure (.bool true)) <|>
  (symbol "false" *> pure (.bool false)) <|>
  moment <|> float <|> basedInteger <|> decimalInteger

end IdentityLint.Toml
