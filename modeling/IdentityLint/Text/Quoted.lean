import IdentityLint.Text.Combining

/-!
Quoted texts.

A quoted text shows every character so that it can be told apart from all others: quotes,
backslashes and the common control characters are escaped by a letter, and all other characters
that would not show, or would change how their neighbours show, by their code point.
-/

namespace IdentityLint.Text.Quoted

/-- A code point in lower-case hexadecimal, without leading zeros. -/
def hexadecimal (n : Nat) : String := String.ofList (Nat.toDigits 16 n)

/-- A character inside quotes. -/
def character (c : Char) : String :=
  if c == '\x00' then "\\0"
  else if c == '\t' then "\\t"
  else if c == '\r' then "\\r"
  else if c == '\n' then "\\n"
  else if c == '\\' then "\\\\"
  else if c == '"' then "\\\""
  else if isCombining c || !isPrintable c then "\\u\x7b" ++ hexadecimal c.toNat ++ "\x7d"
  else c.toString

/-- A text in quotes. -/
def text (s : String) : String := "\"" ++ String.join (s.toList.map character) ++ "\""

/-- A bracketed list of texts in quotes. -/
def list (ss : List String) : String := "[" ++ String.intercalate ", " (ss.map text) ++ "]"

end IdentityLint.Text.Quoted
