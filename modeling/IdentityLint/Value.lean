/-!
Structured values, as configuration files and reports in data formats hold them.
-/

namespace IdentityLint

/-- A structured value. -/
inductive Value where
  | null
  | bool (b : Bool)
  /-- A number without a fractional part. -/
  | integer (n : Int)
  /-- Any other number; its value is of no use here. -/
  | fraction
  /-- A date or a time of day; its value is of no use here. -/
  | moment
  | text (s : String)
  | list (items : List Value)
  /-- Named fields, in order. -/
  | record (fields : List (String × Value))
  deriving Repr, Inhabited

namespace Value

/-- The field of a record with a given name. -/
def field? (v : Value) (name : String) : Option Value :=
  match v with
  | record fields => fields.lookup name
  | _ => none

/-- How records may be written as lists of their fields: whether a list may be longer than the
record has fields. -/
structure ListForm where
  surplus : Bool
  deriving Repr, DecidableEq

/-- The fields of a record with the given names, each one possibly missing.  A list stands for
the record whose fields are its items in order; the flag says whether it was one. -/
def fieldsOf? (form : ListForm) (names : List String) : Value → Option (Bool × List (Option Value))
  | record fields => some (false, names.map fun n => fields.lookup n)
  | list items =>
    if items.length ≤ names.length || form.surplus then
      some (true, (List.range names.length).map fun i => items[i]?)
    else none
  | _ => none

/-! ### Decoding -/

/-- A value that is a text. -/
def text? : Value → Option String
  | text s => some s
  | _ => none

/-- A value that is true or false. -/
def bool? : Value → Option Bool
  | bool b => some b
  | _ => none

/-- The natural numbers that fit into 64 bits. -/
def natural? : Value → Option Nat
  | integer n => if 0 ≤ n ∧ n ≤ 0xFFFFFFFFFFFFFFFF then some n.toNat else none
  | _ => none

/-- The items of a list, each decoded in the same way. -/
def listOf? {α : Type} (decode : Value → Option α) : Value → Option (List α)
  | list items => items.mapM decode
  | _ => none

/-- A value that may be null. -/
def optional? {α : Type} (decode : Value → Option α) : Value → Option (Option α)
  | null => some none
  | v => (decode v).map some

/-- A field that may be missing, with the value it then has. -/
def orDefault {α : Type} (default : α) (decode : Value → Option α) : Option Value → Option α
  | none => some default
  | some v => decode v

end Value

end IdentityLint
