import IdentityLint.Value

/-!
Values as JSON text, one item to a line.
-/

namespace IdentityLint.Json

/-- A control character as an escape with four hexadecimal digits. -/
def escapeCode (c : Char) : String :=
  let digits := Nat.toDigits 16 c.toNat
  "\\u" ++ String.ofList (List.replicate (4 - digits.length) '0' ++ digits)

/-- A character inside quotes. -/
def character (c : Char) : String :=
  if c == '"' then "\\\""
  else if c == '\\' then "\\\\"
  else if c == '\n' then "\\n"
  else if c == '\r' then "\\r"
  else if c == '\t' then "\\t"
  else if c == '\x08' then "\\b"
  else if c == '\x0c' then "\\f"
  else if c.toNat < 0x20 then escapeCode c
  else c.toString

/-- A text in quotes. -/
def quoted (s : String) : String := "\"" ++ String.join (s.toList.map character) ++ "\""

/-- The break between items at a depth of nesting: a new line and its indentation. -/
def newline (depth : Nat) : String := "\n" ++ String.ofList (List.replicate (2 * depth) ' ')

/-- Items on lines of their own between brackets; nothing but the brackets if there are none. -/
def bracketed (opening closing : String) (depth : Nat) (items : List String) : String :=
  if items.isEmpty then opening ++ closing
  else
    opening ++ newline (depth + 1) ++ String.intercalate ("," ++ newline (depth + 1)) items ++
      newline depth ++ closing

mutual
/-- The text of a value at a depth of nesting. -/
def render (depth : Nat) : Value → String
  | .null => "null"
  | .bool true => "true"
  | .bool false => "false"
  | .integer n => toString n
  | .fraction => "null"
  | .moment => "null"
  | .text s => quoted s
  | .list items => bracketed "[" "]" depth (renderItems (depth + 1) items)
  | .record fields => bracketed "\x7b" "\x7d" depth (renderFields (depth + 1) fields)
/-- The texts of the items of a list. -/
def renderItems (depth : Nat) : List Value → List String
  | [] => []
  | v :: vs => render depth v :: renderItems depth vs
/-- The texts of the fields of a record. -/
def renderFields (depth : Nat) : List (String × Value) → List String
  | [] => []
  | (k, v) :: fs => (quoted k ++ ": " ++ render depth v) :: renderFields depth fs
end

end IdentityLint.Json
