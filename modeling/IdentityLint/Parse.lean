/-!
Reading texts.

A `Cursor` is a place in a text: the characters still to be read and the byte offset of the
first of them.  A `Parse α` reads an `α` from a cursor on, or fails and leaves the cursor where
it was, so that `p <|> q` tries `q` from the same place.
-/

namespace IdentityLint

/-- A place in a text. -/
structure Cursor where
  rest : List Char
  offset : Nat
  deriving Repr, Inhabited

namespace Cursor

/-- The beginning of a text. -/
def start (text : List Char) : Cursor := ⟨text, 0⟩

/-- The place `n` characters further on, or the end of the text. -/
def advance : Nat → Cursor → Cursor
  | 0, c => c
  | n + 1, ⟨ch :: rest, offset⟩ => advance n ⟨rest, offset + ch.utf8Size⟩
  | _ + 1, ⟨[], offset⟩ => ⟨[], offset⟩

end Cursor

/-- A reader that may fail.  A failed reader leaves the cursor alone. -/
abbrev Parse (α : Type) : Type := StateT Cursor Option α

namespace Parse

/-- The offset of the place reached. -/
def behind : Parse Nat := return (← get).offset

/-- The characters still to be read. -/
def rest : Parse (List Char) := return (← get).rest

/-- Moves `n` characters ahead and returns the characters passed. -/
def skip (n : Nat) : Parse (List Char) := do
  let c ← get
  set (c.advance n)
  return c.rest.take n

/-- Runs a reader without moving. -/
def peek {α : Type} (p : Parse α) : Parse α := fun c =>
  (p c).map fun r => (r.1, c)

/-- Succeeds only if the reader fails here.  Does not move. -/
def absent {α : Type} (p : Parse α) : Parse Unit := fun c =>
  if (p c).isSome then none else some ((), c)

/-- Reads with `p` if it succeeds, and otherwise yields `d`. -/
def optionD {α : Type} (d : α) (p : Parse α) : Parse α := fun c =>
  match p c with
  | some r => some r
  | none => some (d, c)

/-- Tries `p` and says whether it succeeded. -/
def attempt {α : Type} (p : Parse α) : Parse Bool :=
  optionD false (p *> pure true)

/-- Fails unless the condition holds. -/
def require (b : Bool) : Parse Unit := fun c => if b then some ((), c) else none

/-- Reads with `p` as often as it succeeds and moves ahead. -/
def many {α : Type} (p : Parse α) : Parse (List α) := fun c => some (go c)
where
  /-- The values read from a cursor on, and the cursor behind them. -/
  go (c : Cursor) : List α × Cursor :=
    match p c with
    | none => ([], c)
    | some (a, c') =>
      if c'.rest.length < c.rest.length then
        let r := go c'
        (a :: r.1, r.2)
      else ([], c)
  termination_by c.rest.length

/-- Extends a value with `step` as often as it succeeds and moves ahead. -/
def iterate {α : Type} (step : α → Parse α) (a : α) : Parse α := fun c => some (go a c)
where
  /-- The value extended from a cursor on, and the cursor behind it. -/
  go (a : α) (c : Cursor) : α × Cursor :=
    match step a c with
    | none => (a, c)
    | some (a', c') =>
      if c'.rest.length < c.rest.length then go a' c' else (a, c)
  termination_by c.rest.length

/-- Reads with `p` one or more times, with `sep` between. -/
def sepBy1 {α β : Type} (sep : Parse β) (p : Parse α) : Parse (List α) := do
  let first ← p
  let others ← many (sep *> p)
  return first :: others

/-- A list of entries, some of them empty, with `sep` between; a last separator may close the
list. -/
def sepEnd {α β : Type} (sep : Parse β) (p : Parse (List α)) : Parse (List α) := fun c =>
  some (go c)
where
  /-- The entries read from a cursor on, and the cursor behind them. -/
  go (c : Cursor) : List α × Cursor :=
    match p c with
    | none => ([], c)
    | some (xs, c') =>
      match sep c' with
      | none => (xs, c')
      | some (_, d) =>
        if d.rest.length < c.rest.length then
          let r := go d
          (xs ++ r.1, r.2)
        else (xs, c')
  termination_by c.rest.length

end Parse

end IdentityLint
