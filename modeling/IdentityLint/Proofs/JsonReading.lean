import IdentityLint.Json
import Mathlib.Data.List.Basic
import Mathlib.Tactic.Lemma

/-!
# Reading JSON

A reader of JSON texts, as the second side of `Json.render`: blanks may stand between the tokens,
a character may be written as an escape, and of the numbers the integers are read.  It descends
into a value with a bound on the depth of nesting, for which the length of the text always
suffices.

Main statement: `Exact.read?_render`, that a value is read back from its text.  The texts of fractions
and of moments say nothing about them, so the values are the `Exact` ones, which hold none.
-/

namespace IdentityLint.Json

/-! ## The reader -/

/-- The blanks between tokens. -/
def isBlank (c : Char) : Bool := c == ' ' || c == '\n' || c == '\r' || c == '\t'

/-- The text without the blanks at its beginning. -/
def skip (cs : List Char) : List Char := cs.dropWhile isBlank

/-- The characters of names and numbers. -/
def isWordChar (c : Char) : Bool := c.isAlphanum || c == '-' || c == '+' || c == '.'

/-- The number that decimal digits stand for. -/
def natural? (ds : List Char) : Option Nat :=
  if ds ≠ [] ∧ ds.all Char.isDigit then some (Nat.ofDigitChars 10 ds 0) else none

/-- The value that a name or a number stands for. -/
def word? (w : List Char) : Option Value :=
  if w = "null".toList then some .null
  else if w = "true".toList then some (.bool true)
  else if w = "false".toList then some (.bool false)
  else
    match w with
    | '-' :: ds => (natural? ds).map fun n : Nat => .integer (-n)
    | ds => (natural? ds).map fun n : Nat => .integer n

/-- The value of a hexadecimal digit. -/
def hexDigit? (c : Char) : Option Nat :=
  if c.isDigit then some (c.toNat - '0'.toNat)
  else if 'a' ≤ c ∧ c ≤ 'f' then some (c.toNat - 'a'.toNat + 10)
  else if 'A' ≤ c ∧ c ≤ 'F' then some (c.toNat - 'A'.toNat + 10)
  else none

/-- The character that hexadecimal digits are the code of. -/
def coded? (ds : List Char) : Option Char := do
  let n ← ds.foldlM (fun n d => (hexDigit? d).map (16 * n + ·)) 0
  if n.isValidChar then some (Char.ofNat n) else none

/-- The character that a letter behind a backslash stands for. -/
def escaped? : Char → Option Char
  | '"' => some '"'
  | '\\' => some '\\'
  | '/' => some '/'
  | 'n' => some '\n'
  | 'r' => some '\r'
  | 't' => some '\t'
  | 'b' => some '\x08'
  | 'f' => some '\x0c'
  | _ => none

/-- A text from behind its opening quote, and what follows its closing one. -/
def text? : List Char → Option (List Char × List Char)
  | [] => none
  | '"' :: rest => some ([], rest)
  | '\\' :: 'u' :: a :: b :: c :: d :: rest => do
    let e ← coded? [a, b, c, d]
    let (s, rest) ← text? rest
    return (e :: s, rest)
  | '\\' :: c :: rest => do
    let e ← escaped? c
    let (s, rest) ← text? rest
    return (e :: s, rest)
  | c :: rest =>
    if c = '\\' ∨ c.toNat < 0x20 then none
    else do
      let (s, rest) ← text? rest
      return (c :: s, rest)

section Sequences

variable {α : Type} (close : Char) (item? : List Char → Option (α × List Char))

/-- Items divided by commas up to a closing bracket, at least one and not more than a bound. -/
def items? : Nat → List Char → Option (List α × List Char)
  | 0, _ => none
  | n + 1, cs => do
    let (x, cs) ← item? cs
    match skip cs with
    | ',' :: cs =>
      let (xs, cs) ← items? n cs
      return (x :: xs, cs)
    | c :: cs => if c = close then some ([x], cs) else none
    | [] => none

/-- Items from behind their opening bracket, possibly none. -/
def sequence? (n : Nat) (cs : List Char) : Option (List α × List Char) :=
  match skip cs with
  | c :: rest => if c = close then some ([], rest) else items? close item? n cs
  | [] => none

end Sequences

/-- A field of a record, with its value as a reader of values gives it. -/
def field? (value? : List Char → Option (Value × List Char)) (cs : List Char) :
    Option ((String × Value) × List Char) :=
  match skip cs with
  | '"' :: cs => do
    let (k, cs) ← text? cs
    match skip cs with
    | ':' :: cs =>
      let (v, cs) ← value? cs
      return ((String.ofList k, v), cs)
    | _ => none
  | _ => none

/-- A value whose nesting stays within a bound, and what follows it. -/
def value? : Nat → List Char → Option (Value × List Char)
  | 0, _ => none
  | n + 1, cs =>
    match skip cs with
    | '"' :: cs => (text? cs).map fun r => (.text (String.ofList r.1), r.2)
    | '[' :: cs => (sequence? ']' (value? n) n cs).map fun r => (.list r.1, r.2)
    | '\x7b' :: cs =>
      (sequence? '\x7d' (field? (value? n)) n cs).map fun r => (.record r.1, r.2)
    | cs => (word? (cs.takeWhile isWordChar)).map fun v => (v, cs.dropWhile isWordChar)

/-- The value that a whole text stands for. -/
def read? (s : String) : Option Value := do
  let (v, rest) ← value? s.length s.toList
  if skip rest = [] then some v else none

example : ((read? "\t\x7b\"a\\u0062\" :[ ],\"c\":-7 \x7d").bind (·.field? "ab")).bind
    (Value.listOf? Value.natural?) = some [] := by
  decide +kernel

/-! ## Blanks and words -/

/-- A text that continues no word. -/
def EndsWord (cs : List Char) : Prop := ∀ c ∈ cs.head?, isWordChar c = false

lemma EndsWord.cons {c : Char} (h : isWordChar c = false) (cs : List Char) :
    EndsWord (c :: cs) := by
  simp [EndsWord, h]

lemma skip_cons_of_blank {c : Char} (h : isBlank c = true) (cs : List Char) :
    skip (c :: cs) = skip cs :=
  List.dropWhile_cons_of_pos h

lemma skip_cons {c : Char} (h : isBlank c = false) (cs : List Char) :
    skip (c :: cs) = c :: cs :=
  List.dropWhile_cons_of_neg (by simp [h])

lemma toList_newline (depth : Nat) :
    (newline depth).toList = '\n' :: List.replicate (2 * depth) ' ' := by
  simp [newline]

/-- A line break is blank. -/
lemma skip_newline (depth : Nat) (cs : List Char) :
    skip ((newline depth).toList ++ cs) = skip cs := by
  rw [toList_newline, List.cons_append, skip_cons_of_blank (by decide)]
  induction 2 * depth with
  | zero => rfl
  | succ k ih => rw [List.replicate_succ, List.cons_append, skip_cons_of_blank (by decide), ih]

lemma EndsWord.newline (depth : Nat) (cs : List Char) :
    EndsWord ((newline depth).toList ++ cs) := by
  rw [toList_newline]
  exact .cons (by decide) _

/-- A word is taken off the front of a text that continues no word behind it. -/
lemma takeWhile_dropWhile_word {w rest : List Char} (hw : w.all isWordChar = true)
    (hr : EndsWord rest) :
    (w ++ rest).takeWhile isWordChar = w ∧ (w ++ rest).dropWhile isWordChar = rest := by
  rw [List.all_eq_true] at hw
  rw [List.takeWhile_append_of_pos hw, List.dropWhile_append_of_pos hw]
  cases rest with
  | nil => simp
  | cons c rest =>
    have hc : isWordChar c = false := hr c (by simp)
    simp [hc]

lemma isBlank_of_isWordChar {c : Char} (h : isWordChar c = true) : isBlank c = false := by
  by_contra hb
  simp only [isBlank, Bool.not_eq_false, Bool.or_eq_true, beq_iff_eq] at hb
  rcases hb with ((rfl | rfl) | rfl) | rfl <;> exact absurd h (by decide)

/-- A word stands for a value. -/
structure Spells (w : List Char) (v : Value) : Prop where
  ne_nil : w ≠ []
  all_isWordChar : w.all isWordChar = true
  word?_eq : word? w = some v

/-- A word begins with one of its characters. -/
lemma Spells.exists_eq_cons {w : List Char} {v : Value} (h : Spells w v) :
    ∃ c cs, w = c :: cs ∧ isWordChar c = true := by
  obtain ⟨c, cs, rfl⟩ := List.exists_cons_of_ne_nil h.ne_nil
  exact ⟨c, cs, rfl, List.all_eq_true.1 h.all_isWordChar c (by simp)⟩

/-- A value that is written as one word is read back from it. -/
lemma Spells.value?_eq {w rest : List Char} {v : Value} (h : Spells w v) (hr : EndsWord rest)
    (n : Nat) : value? (n + 1) (w ++ rest) = some (v, rest) := by
  obtain ⟨ht, hd⟩ := takeWhile_dropWhile_word h.all_isWordChar hr
  obtain ⟨c, cs, rfl, hc⟩ := h.exists_eq_cons
  have hskip : skip (c :: cs ++ rest) = c :: cs ++ rest := skip_cons (isBlank_of_isWordChar hc) _
  rw [value?, hskip]
  split
  · next h => cases h; exact absurd hc (by decide)
  · next h => cases h; exact absurd hc (by decide)
  · next h => cases h; exact absurd hc (by decide)
  · rw [ht, hd, h.word?_eq]; rfl

lemma spells_null : Spells "null".toList .null := ⟨by decide, by decide, rfl⟩

lemma spells_true : Spells "true".toList (.bool true) := ⟨by decide, by decide, rfl⟩

lemma spells_false : Spells "false".toList (.bool false) := ⟨by decide, by decide, rfl⟩

/-! ## Numbers -/

lemma isDigit_of_mem_toDigits {n : Nat} {c : Char} (h : c ∈ Nat.toDigits 10 n) :
    c.isDigit = true :=
  Nat.isDigit_of_mem_toDigits (by omega) (by omega) h

lemma natural?_toDigits (n : Nat) : natural? (Nat.toDigits 10 n) = some n := by
  have hd : (Nat.toDigits 10 n).all Char.isDigit = true :=
    List.all_eq_true.2 fun _ => isDigit_of_mem_toDigits
  rw [natural?, if_pos ⟨Nat.toDigits_ne_nil, hd⟩, Nat.ofDigitChars_ten_toDigits]

lemma isWordChar_of_isDigit {c : Char} (h : c.isDigit = true) : isWordChar c = true := by
  simp [isWordChar, Char.isAlphanum, h]

lemma all_isWordChar_toDigits (n : Nat) : (Nat.toDigits 10 n).all isWordChar = true :=
  List.all_eq_true.2 fun _ hc => isWordChar_of_isDigit (isDigit_of_mem_toDigits hc)

/-- Digits are neither a name nor a negative number. -/
lemma word?_toDigits (n : Nat) : word? (Nat.toDigits 10 n) = some (.integer n) := by
  obtain ⟨d, ds, hds⟩ := List.exists_cons_of_ne_nil (Nat.toDigits_ne_nil : Nat.toDigits 10 n ≠ [])
  have hd : d.isDigit = true := isDigit_of_mem_toDigits (hds ▸ List.mem_cons_self)
  have hn := natural?_toDigits n
  rw [hds] at hn ⊢
  have hne : ∀ c w, c.isDigit = false → d :: ds ≠ c :: w := by
    rintro c w hc ⟨⟩
    simp [hc] at hd
  have hname : ∀ c w, c.isDigit = false → d :: ds ≠ (String.ofList (c :: w)).toList := by
    simpa using hne
  unfold word?
  rw [if_neg (hname 'n' _ (by decide)), if_neg (hname 't' _ (by decide)),
    if_neg (hname 'f' _ (by decide))]
  split
  · next h => exact absurd h (hne _ _ (by decide))
  · rw [hn]; rfl

lemma word?_minus_toDigits (n : Nat) :
    word? ('-' :: Nat.toDigits 10 n) = some (.integer (-n)) := by
  simp [word?, natural?_toDigits]

lemma spells_integer (n : Int) : Spells (toString n).toList (.integer n) := by
  cases n with
  | ofNat n =>
    have h : (toString (Int.ofNat n)).toList = Nat.toDigits 10 n := by
      simp [Int.toString_eq_repr, Int.repr, Nat.repr_eq_ofList_toDigits]
    rw [h]
    exact ⟨Nat.toDigits_ne_nil, all_isWordChar_toDigits n, word?_toDigits n⟩
  | negSucc n =>
    have h : (toString (Int.negSucc n)).toList = '-' :: Nat.toDigits 10 (n + 1) := by
      simp [Int.toString_eq_repr, Int.repr, Nat.repr_eq_ofList_toDigits]
    rw [h]
    refine ⟨List.cons_ne_nil _ _, ?_, word?_minus_toDigits (n + 1)⟩
    rw [List.all_cons, all_isWordChar_toDigits]
    decide

/-! ## Texts -/

/-- The codes of the control characters have four digits. -/
lemma coded?_escapeCode :
    ∀ n < 0x20, (escapeCode (Char.ofNat n)).toList.length = 6 ∧
      (escapeCode (Char.ofNat n)).toList.take 2 = ['\\', 'u'] ∧
      coded? ((escapeCode (Char.ofNat n)).toList.drop 2) = some (Char.ofNat n) := by
  decide +kernel

lemma text?_escapeCode {c : Char} (hc : c.toNat < 0x20) (cs : List Char) :
    text? ((escapeCode c).toList ++ cs) = (text? cs).map fun r => (c :: r.1, r.2) := by
  obtain ⟨hlen, htake, hcode⟩ := coded?_escapeCode c.toNat hc
  rw [Char.ofNat_toNat] at hlen htake hcode
  match h : (escapeCode c).toList, hlen with
  | [b, u, d₁, d₂, d₃, d₄], _ =>
    rw [h] at htake hcode
    obtain ⟨rfl, rfl⟩ : b = '\\' ∧ u = 'u' := by simpa using htake
    have hcode : coded? [d₁, d₂, d₃, d₄] = some c := hcode
    simp only [List.cons_append, List.nil_append, text?, hcode]
    cases text? cs <;> rfl

lemma text?_escaped {e c : Char} (h : escaped? e = some c) (cs : List Char) :
    text? ('\\' :: e :: cs) = (text? cs).map fun r => (c :: r.1, r.2) := by
  have hu : e ≠ 'u' := by
    rintro rfl
    cases h
  rw [text?, h]
  · cases text? cs <;> rfl
  · simp [hu]

lemma text?_plain {c : Char} (hq : c ≠ '"') (hb : c ≠ '\\') (hc : ¬c.toNat < 0x20)
    (cs : List Char) : text? (c :: cs) = (text? cs).map fun r => (c :: r.1, r.2) := by
  rw [text?, if_neg (by simp [hb, hc])]
  · cases text? cs <;> rfl
  all_goals simp [hq, hb]

/-- A character is read back from what is written for it inside quotes. -/
lemma text?_character (c : Char) (cs : List Char) :
    text? ((character c).toList ++ cs) = (text? cs).map fun r => (c :: r.1, r.2) := by
  simp only [character, beq_iff_eq]
  split_ifs with hquote hslash hn hr ht hb hf hctrl
  · simpa [hquote] using text?_escaped (e := '"') rfl cs
  · simpa [hslash] using text?_escaped (e := '\\') rfl cs
  · simpa [hn] using text?_escaped (e := 'n') rfl cs
  · simpa [hr] using text?_escaped (e := 'r') rfl cs
  · simpa [ht] using text?_escaped (e := 't') rfl cs
  · simpa [hb] using text?_escaped (e := 'b') rfl cs
  · simpa [hf] using text?_escaped (e := 'f') rfl cs
  · exact text?_escapeCode hctrl cs
  · simpa using text?_plain hquote hslash hctrl cs

/-- A text is read back from between its quotes. -/
lemma text?_quoted (s rest : List Char) :
    text? (s.flatMap (fun c => (character c).toList) ++ '"' :: rest) = some (s, rest) := by
  induction s with
  | nil => simp [text?]
  | cons c s ih =>
    rw [List.flatMap_cons, List.append_assoc, text?_character, ih]
    rfl

lemma toList_quoted (s : String) :
    (quoted s).toList = '"' :: (s.toList.flatMap (fun c => (character c).toList) ++ ['"']) := by
  simp [quoted, List.flatMap_map]

/-! ## Sequences -/

/-- The texts joined by a separator are no shorter than any of them, and have room for as many
separators as there are texts but one. -/
lemma length_add_length_le_intercalate {sep x : List Char} (hsep : sep ≠ [])
    {xs : List (List Char)} (hx : x ∈ xs) :
    x.length + xs.length ≤ (sep.intercalate xs).length + 1 := by
  have hpos : 0 < sep.length := List.length_pos_iff.2 hsep
  induction xs generalizing x with
  | nil => cases hx
  | cons y ys ih =>
    cases ys with
    | nil =>
      obtain rfl : x = y := by simpa using hx
      simp
    | cons z zs =>
      have hz := ih (x := z) (by simp)
      rw [List.intercalate_cons_cons]
      simp only [List.length_append, List.length_cons] at hz ⊢
      rcases List.mem_cons.1 hx with rfl | hx
      · omega
      · have := ih hx
        simp only [List.length_cons] at this
        omega

lemma exists_intercalate_cons (sep x : List Char) (xs : List (List Char)) :
    ∃ tail, sep.intercalate (x :: xs) = x ++ tail := by
  cases xs with
  | nil => exact ⟨[], by simp⟩
  | cons y ys => exact ⟨_, by rw [List.intercalate_cons_cons, List.append_assoc]⟩

section Sequences

variable {α : Type} {close : Char} {item? : List Char → Option (α × List Char)}
  {text : α → String} {xs : List α} {depth n : Nat}

/-- Items that are read back one by one are read back together. -/
lemma items?_intercalate (hcomma : close ≠ ',') (hblank : isBlank close = false)
    (hitem : ∀ x ∈ xs, ∀ rest, EndsWord rest →
      item? ((newline (depth + 1)).toList ++ ((text x).toList ++ rest)) = some (x, rest))
    (hne : xs ≠ []) (hn : xs.length ≤ n) (rest : List Char) :
    items? close item? n ((newline (depth + 1)).toList ++
        ((',' :: (newline (depth + 1)).toList).intercalate (xs.map fun x => (text x).toList) ++
          ((newline depth).toList ++ close :: rest))) =
      some (xs, rest) := by
  induction xs generalizing n with
  | nil => exact absurd rfl hne
  | cons x xs ih =>
    obtain _ | n := n
    · simp at hn
    cases xs with
    | nil =>
      simp only [List.map_cons, List.map_nil, List.intercalate_singleton, items?]
      rw [hitem x (by simp) _ (.newline depth _)]
      simp [skip_newline, skip_cons hblank]
    | cons y ys =>
      have hrest := ih (fun z hz => hitem z (by simp [hz])) (by simp)
        (Nat.le_of_succ_le_succ hn)
      simp only [List.map_cons, List.intercalate_cons_cons, List.append_assoc, List.cons_append,
        items?] at hrest ⊢
      rw [hitem x (by simp) _ (.cons (by decide) _)]
      simp only [Option.bind_eq_bind, Option.bind_some, skip_cons (c := ',') (by decide), hrest]
      rfl

/-- A bracketed sequence is longer than any of its items, and than their number. -/
lemma length_add_length_le_bracketed (closing : String) (depth : Nat) {texts : List String}
    {t : String} (ht : t ∈ texts) :
    t.toList.length + texts.length ≤ (bracketed "" closing depth texts).toList.length := by
  have hne : texts ≠ [] := List.ne_nil_of_mem ht
  have hsep : ("," ++ newline (depth + 1)).toList ≠ [] := by simp
  have hlen := length_add_length_le_intercalate hsep (List.mem_map_of_mem (f := String.toList) ht)
  have hpos : 0 < (newline depth).toList.length := by simp [toList_newline]
  rw [bracketed, if_neg (by simpa using hne)]
  simp only [String.toList_append, String.toList_intercalate, List.length_append,
    List.length_map] at hlen ⊢
  omega

/-- A bracketed sequence is read back from behind its opening bracket if its items are read back
one by one, and if none of them begins like a closing bracket. -/
lemma sequence?_bracketed {closing : String} (hclosing : closing.toList = [close])
    (hcomma : close ≠ ',') (hblank : isBlank close = false)
    (hn : (bracketed "" closing depth (xs.map text)).toList.length ≤ n)
    (hitem : ∀ x ∈ xs, (text x).toList.length ≤ n → ∀ rest, EndsWord rest →
      item? ((newline (depth + 1)).toList ++ ((text x).toList ++ rest)) = some (x, rest))
    (hhead : ∀ x ∈ xs, ∃ c cs, (text x).toList = c :: cs ∧ isBlank c = false ∧ c ≠ close)
    (rest : List Char) :
    sequence? close item? n ((bracketed "" closing depth (xs.map text)).toList ++ rest) =
      some (xs, rest) := by
  cases xs with
  | nil => simp [bracketed, hclosing, sequence?, skip_cons hblank]
  | cons x xs =>
    have hlen : ∀ y ∈ x :: xs, (text y).toList.length + (x :: xs).length ≤ n := by
      intro y hy
      have := length_add_length_le_bracketed closing depth (List.mem_map_of_mem (f := text) hy)
      rw [List.length_map] at this
      omega
    have hlen_items : (x :: xs).length ≤ n := by
      have := hlen x (by simp)
      omega
    have hitems := items?_intercalate hcomma hblank
      (fun y hy => hitem y hy (by have := hlen y hy; omega)) (by simp) hlen_items rest
    obtain ⟨c, cs, hx, hc, hne⟩ := hhead x (by simp)
    have htext : (bracketed "" closing depth ((x :: xs).map text)).toList ++ rest =
        (newline (depth + 1)).toList ++
          ((',' :: (newline (depth + 1)).toList).intercalate
              ((x :: xs).map fun x => (text x).toList) ++
            ((newline depth).toList ++ close :: rest)) := by
      simp [bracketed, hclosing, Function.comp_def]
    obtain ⟨tail, htail⟩ := exists_intercalate_cons (',' :: (newline (depth + 1)).toList)
      (text x).toList (xs.map fun x => (text x).toList)
    -- the first item begins where the blanks behind the opening bracket end
    rw [List.map_cons (f := fun x => (text x).toList), htail, hx, List.append_assoc,
      List.cons_append] at htext hitems
    rw [htext, sequence?, skip_newline, skip_cons hc]
    simp only [if_neg hne, hitems]

lemma bracketed_eq_append (opening closing : String) (depth : Nat) (texts : List String) :
    bracketed opening closing depth texts = opening ++ bracketed "" closing depth texts := by
  unfold bracketed
  split <;> simp [String.append_assoc]

end Sequences

/-! ## Values -/

/-- The values that are read back from their texts: those in which no fraction and no moment
occurs. -/
inductive Exact : Value → Prop
  | null : Exact .null
  | bool (b : Bool) : Exact (.bool b)
  | integer (n : Int) : Exact (.integer n)
  | text (s : String) : Exact (.text s)
  | list {items : List Value} : (∀ v ∈ items, Exact v) → Exact (.list items)
  | record {fields : List (String × Value)} :
    (∀ f ∈ fields, Exact f.2) → Exact (.record fields)

lemma renderItems_eq (depth : Nat) (items : List Value) :
    renderItems depth items = items.map (render depth) := by
  induction items with
  | nil => rfl
  | cons v vs ih => rw [renderItems, ih, List.map_cons]

lemma renderFields_eq (depth : Nat) (fields : List (String × Value)) :
    renderFields depth fields = fields.map fun f => quoted f.1 ++ ": " ++ render depth f.2 := by
  induction fields with
  | nil => rfl
  | cons f fs ih => rw [renderFields, ih, List.map_cons]

lemma toList_render_list (depth : Nat) (items : List Value) :
    (render depth (.list items)).toList =
      '[' :: (bracketed "" "]" depth (items.map (render (depth + 1)))).toList := by
  rw [render, renderItems_eq, bracketed_eq_append, String.toList_append]
  rfl

lemma toList_render_record (depth : Nat) (fields : List (String × Value)) :
    (render depth (.record fields)).toList =
      '\x7b' :: (bracketed "" "\x7d" depth
        (fields.map fun f => quoted f.1 ++ ": " ++ render (depth + 1) f.2)).toList := by
  rw [render, renderFields_eq, bracketed_eq_append, String.toList_append]
  rfl

/-- No text of a value begins with a blank or like the end of a list. -/
lemma Exact.exists_render_eq_cons {v : Value} (hv : Exact v) (depth : Nat) :
    ∃ c cs, (render depth v).toList = c :: cs ∧ isBlank c = false ∧ c ≠ ']' := by
  have of_word : ∀ {w}, Spells w v → ∃ c cs, w = c :: cs ∧ isBlank c = false ∧ c ≠ ']' := by
    intro w hw
    obtain ⟨c, cs, hcs, hc⟩ := hw.exists_eq_cons
    exact ⟨c, cs, hcs, isBlank_of_isWordChar hc, by rintro rfl; exact absurd hc (by decide)⟩
  cases hv with
  | null => exact of_word spells_null
  | bool b =>
    cases b with
    | false => exact of_word spells_false
    | true => exact of_word spells_true
  | integer n => exact of_word (spells_integer n)
  | text s => exact ⟨'"', _, toList_quoted s, by decide, by decide⟩
  | list _ => exact ⟨'[', _, toList_render_list depth _, by decide, by decide⟩
  | record _ => exact ⟨'\x7b', _, toList_render_record depth _, by decide, by decide⟩

lemma value?_newline (n depth : Nat) (cs : List Char) :
    value? n ((newline depth).toList ++ cs) = value? n cs := by
  cases n with
  | zero => rfl
  | succ n => simp only [value?, skip_newline]

lemma value?_space (n : Nat) (cs : List Char) : value? n (' ' :: cs) = value? n cs := by
  cases n with
  | zero => rfl
  | succ n => simp only [value?, skip_cons_of_blank (c := ' ') (by decide)]

lemma toList_field (k t : String) :
    (quoted k ++ ": " ++ t).toList =
      '"' :: (k.toList.flatMap (fun c => (character c).toList) ++
        '"' :: ':' :: ' ' :: t.toList) := by
  simp [toList_quoted]

/-- A field is read back if its value is. -/
lemma field?_newline {value? : List Char → Option (Value × List Char)} {k t : String} {v : Value}
    {rest : List Char} (depth : Nat)
    (hv : value? (' ' :: (t.toList ++ rest)) = some (v, rest)) :
    field? value? ((newline depth).toList ++ ((quoted k ++ ": " ++ t).toList ++ rest)) =
      some ((k, v), rest) := by
  rw [toList_field, field?, skip_newline, List.cons_append, skip_cons (by decide)]
  simp [text?_quoted, skip_cons (c := ':') (by decide), hv]

/-- A value is read back from its text. -/
lemma Exact.value?_render {v : Value} (hv : Exact v) :
    ∀ {depth n : Nat} {rest : List Char}, (render depth v).toList.length ≤ n → EndsWord rest →
      value? n ((render depth v).toList ++ rest) = some (v, rest) := by
  have pos : ∀ {v depth n}, Exact v → (render depth v).toList.length ≤ n → ∃ m, n = m + 1 := by
    intro v depth n hv hn
    obtain ⟨c, cs, hcs, -, -⟩ := hv.exists_render_eq_cons depth
    rw [hcs, List.length_cons] at hn
    exact ⟨n - 1, by omega⟩
  induction hv with
  | null =>
    intro depth n rest hn hr
    obtain ⟨n, rfl⟩ := pos .null hn
    exact spells_null.value?_eq hr n
  | bool b =>
    intro depth n rest hn hr
    obtain ⟨n, rfl⟩ := pos (.bool b) hn
    cases b with
    | false => exact spells_false.value?_eq hr n
    | true => exact spells_true.value?_eq hr n
  | integer k =>
    intro depth n rest hn hr
    obtain ⟨n, rfl⟩ := pos (.integer k) hn
    exact (spells_integer k).value?_eq hr n
  | text s =>
    intro depth n rest hn hr
    obtain ⟨n, rfl⟩ := pos (.text s) hn
    simp [render, toList_quoted, value?, skip_cons (c := '"') (by decide), text?_quoted]
  | @list items hitems ih =>
    intro depth n rest hn hr
    obtain ⟨n, rfl⟩ := pos (.list hitems) hn
    rw [toList_render_list, List.length_cons, Nat.add_le_add_iff_right] at hn
    have hread : sequence? ']' (value? n) n
        ((bracketed "" "]" depth (items.map (render (depth + 1)))).toList ++ rest) =
          some (items, rest) := by
      refine sequence?_bracketed rfl (by decide) (by decide) hn ?_ ?_ rest
      · intro v hv hlen rest hr
        rw [value?_newline]
        exact ih v hv hlen hr
      · intro v hv
        exact (hitems v hv).exists_render_eq_cons (depth + 1)
    rw [toList_render_list, List.cons_append, value?, skip_cons (by decide)]
    simp only [hread, Option.map_some]
  | @record fields hfields ih =>
    intro depth n rest hn hr
    obtain ⟨n, rfl⟩ := pos (.record hfields) hn
    rw [toList_render_record, List.length_cons, Nat.add_le_add_iff_right] at hn
    have hread : sequence? '\x7d' (field? (value? n)) n
        ((bracketed "" "\x7d" depth
          (fields.map fun f => quoted f.1 ++ ": " ++ render (depth + 1) f.2)).toList ++ rest) =
          some (fields, rest) := by
      refine sequence?_bracketed rfl (by decide) (by decide) hn ?_ ?_ rest
      · intro f hf hlen rest hr
        simp only [String.toList_append, List.length_append] at hlen
        apply field?_newline
        rw [value?_space]
        exact ih f hf (by omega) hr
      · intro f _
        exact ⟨'"', _, toList_field f.1 _, by decide, by decide⟩
    rw [toList_render_record, List.cons_append, value?, skip_cons (by decide)]
    simp only [hread, Option.map_some]

/-- A value is read back from its text on a line of its own. -/
lemma Exact.read?_render {v : Value} (hv : Exact v) : read? (render 0 v ++ "\n") = some v := by
  have hlen : (render 0 v).toList.length ≤ (render 0 v ++ "\n").length := by
    rw [String.length_append, String.length_toList]
    omega
  have hread := hv.value?_render hlen (.cons (c := '\n') (by decide) [])
  have htext : (render 0 v ++ "\n").toList = (render 0 v).toList ++ ['\n'] := by simp
  rw [read?, htext, hread]
  rfl

end IdentityLint.Json
