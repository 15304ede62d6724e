import IdentityLint.Proofs.Readers
import IdentityLint.Syntax.Balance

/-!
# Where tokens begin

Blanks and comments are skipped in front of a token.  Behind them the cursor stands at a token
(`Cursor.AtToken`): skipping once more changes nothing, and the next character is no blank.  The
comments that were skipped stand one behind the other in front of the token.

The readers of tokens move ahead, and those that read a name pass at least one character.
-/

namespace IdentityLint

open Parse

namespace Syntax

/-! ### Spans one behind the other -/

/-- Spans that stand one behind the other between two offsets. -/
def Span.Spread : Nat → Nat → List Span → Prop
  | lo, hi, [] => lo ≤ hi
  | lo, hi, s :: ss => lo ≤ s.start ∧ s.start ≤ s.stop ∧ Spread s.stop hi ss

namespace Span.Spread

variable {lo mid hi : Nat} {ss ts : List Span}

lemma le (h : Spread lo hi ss) : lo ≤ hi := by
  induction ss generalizing lo with
  | nil => exact h
  | cons s ss ih =>
    obtain ⟨hstart, hspan, hrest⟩ := h
    have := ih hrest
    omega

lemma append (hs : Spread lo mid ss) (ht : Spread mid hi ts) : Spread lo hi (ss ++ ts) := by
  induction ss generalizing lo with
  | nil =>
    cases ts with
    | nil => exact Nat.le_trans hs ht
    | cons t ts => exact ⟨Nat.le_trans hs ht.1, ht.2⟩
  | cons s ss ih =>
    obtain ⟨hstart, hspan, hrest⟩ := hs
    exact ⟨hstart, hspan, ih hrest⟩

lemma widen_left (h : Spread mid hi ss) (hlo : lo ≤ mid) : Spread lo hi ss :=
  append (show Spread lo mid [] from hlo) h

lemma widen_right (h : Spread lo mid ss) (hhi : mid ≤ hi) : Spread lo hi ss := by
  have hwide := append h (show Spread mid hi [] from hhi)
  rwa [List.append_nil] at hwide

lemma of_mem (h : Spread lo hi ss) {s : Span} (hs : s ∈ ss) :
    lo ≤ s.start ∧ s.start ≤ s.stop ∧ s.stop ≤ hi := by
  induction ss generalizing lo with
  | nil => cases hs
  | cons t ss ih =>
    obtain ⟨hstart, hspan, hrest⟩ := h
    rcases List.mem_cons.1 hs with rfl | hs
    · exact ⟨hstart, hspan, le hrest⟩
    · obtain ⟨hlo, hspan', hhi⟩ := ih hrest hs
      exact ⟨by omega, hspan', hhi⟩

lemma pairwise (h : Spread lo hi ss) : ss.Pairwise fun s t => s.stop ≤ t.start := by
  induction ss generalizing lo with
  | nil => exact .nil
  | cons s ss ih => exact .cons (fun t ht => (of_mem h.2.2 ht).1) (ih h.2.2)

end Span.Spread

/-! ### Blanks and comments -/

end Syntax

/-- There is nothing to skip at the place. -/
def Cursor.AtToken (c : Cursor) : Prop := Syntax.triviaAt? c = some ⟨[], false, c⟩

namespace Syntax

/-- Where the comment began that a scan is inside of; outside comments, where the scan is. -/
def TriviaMode.since : TriviaMode → Nat → Nat
  | outside, offset => offset
  | line start, _ => start
  | block start, _ => start

/-- A character that opens no comment is skipped if it is a blank, and otherwise ends the scan. -/
lemma skipTrivia_outside_cons {cs : List Span} {newline : Bool} {offset : Nat} {ch : Char}
    {rest : List Char} (hline : ∀ more, ch = '/' → rest = '/' :: more → False)
    (hblock : ∀ more, ch = '/' → rest = '*' :: more → False) :
    skipTrivia .outside cs newline offset (ch :: rest) =
      if isBlank ch then
        skipTrivia .outside cs (newline || ch == '\n') (offset + ch.utf8Size) rest
      else some ⟨cs.reverse, newline, ⟨ch :: rest, offset⟩⟩ := by
  rw [skipTrivia.eq_def]
  split <;> simp_all

/-- A scan ends at a token, and the comments that it adds stand one behind the other. -/
lemma skipTrivia_eq_some {mode : TriviaMode} {cs : List Span} {newline : Bool} {offset : Nat}
    {rest : List Char} {t : Trivia} (h : skipTrivia mode cs newline offset rest = some t)
    (hmode : mode.since offset ≤ offset) :
    Cursor.Reaches ⟨rest, offset⟩ t.next ∧ t.next.AtToken ∧
      ∃ new, t.comments = cs.reverse ++ new ∧
        Span.Spread (mode.since offset) t.next.offset new := by
  -- outside a comment the scan goes on from the character behind; inside one, the comment still
  -- counts from where it began, and is added when it ends
  have hslash : '/'.utf8Size = 1 := rfl
  have hstar : '*'.utf8Size = 1 := rfl
  fun_induction skipTrivia mode cs newline offset rest with
  | case1 cs nl off rest ih =>
    obtain ⟨hreach, htoken, new, hnew, hspread⟩ := ih h (Nat.le_add_right off 2)
    exact ⟨((Cursor.reaches_cons _ _ _).trans (Cursor.reaches_cons _ _ _)).trans hreach, htoken,
      new, hnew, hspread⟩
  | case2 cs nl off rest ih =>
    obtain ⟨hreach, htoken, new, hnew, hspread⟩ := ih h (Nat.le_add_right off 2)
    exact ⟨((Cursor.reaches_cons _ _ _).trans (Cursor.reaches_cons _ _ _)).trans hreach, htoken,
      new, hnew, hspread⟩
  | case3 cs nl off ch rest hline hblock hblank ih =>
    obtain ⟨hreach, htoken, new, hnew, hspread⟩ := ih h (Nat.le_refl _)
    exact ⟨(Cursor.reaches_cons ch rest off).trans hreach, htoken, new, hnew,
      hspread.widen_left (Nat.le_add_right off _)⟩
  | case4 cs nl off ch rest hline hblock hblank =>
    cases h
    refine ⟨.refl _, ?_, [], (List.append_nil _).symm, Nat.le_refl off⟩
    rw [Cursor.AtToken, triviaAt?, skipTrivia_outside_cons hline hblock, if_neg hblank]
    rfl
  | case5 cs nl off =>
    cases h
    exact ⟨.refl _, rfl, [], (List.append_nil _).symm, Nat.le_refl off⟩
  | case6 start cs nl off ch rest hends ih =>
    obtain ⟨hreach, htoken, new, hnew, hspread⟩ := ih h (Nat.le_refl _)
    refine ⟨(Cursor.reaches_cons ch rest off).trans hreach, htoken, ⟨start, off⟩ :: new, ?_,
      Nat.le_refl start, hmode, hspread.widen_left (Nat.le_add_right off _)⟩
    rw [hnew, List.reverse_cons, List.append_assoc, List.singleton_append]
  | case7 start cs nl off ch rest hends ih =>
    obtain ⟨hreach, htoken, new, hnew, hspread⟩ := ih h (Nat.le_add_right_of_le hmode)
    exact ⟨(Cursor.reaches_cons ch rest off).trans hreach, htoken, new, hnew, hspread⟩
  | case8 start cs nl off =>
    cases h
    exact ⟨.refl _, rfl, [⟨start, off⟩], List.reverse_cons, Nat.le_refl start, hmode,
      Nat.le_refl off⟩
  | case9 start cs nl off rest ih =>
    obtain ⟨hreach, htoken, new, hnew, hspread⟩ := ih h (Nat.le_refl _)
    refine ⟨((Cursor.reaches_cons _ _ _).trans (Cursor.reaches_cons _ _ _)).trans hreach, htoken,
      ⟨start, off + 2⟩ :: new, ?_, Nat.le_refl start, Nat.le_add_right_of_le hmode, hspread⟩
    rw [hnew, List.reverse_cons, List.append_assoc, List.singleton_append]
  | case10 start cs nl off ch rest hends ih =>
    obtain ⟨hreach, htoken, new, hnew, hspread⟩ := ih h (Nat.le_add_right_of_le hmode)
    exact ⟨(Cursor.reaches_cons ch rest off).trans hreach, htoken, new, hnew, hspread⟩
  | case11 start cs nl off => cases h

section Trivia

variable {c : Cursor} {t : Trivia}

lemma reaches_next (h : triviaAt? c = some t) : c.Reaches t.next :=
  (skipTrivia_eq_some h (Nat.le_refl _)).1

lemma atToken_next (h : triviaAt? c = some t) : t.next.AtToken :=
  (skipTrivia_eq_some h (Nat.le_refl _)).2.1

/-- The comments in front of a token stand one behind the other. -/
lemma spread_comments (h : triviaAt? c = some t) :
    Span.Spread c.offset t.next.offset t.comments := by
  obtain ⟨-, -, new, hnew, hspread⟩ := skipTrivia_eq_some h (Nat.le_refl _)
  rwa [hnew]

end Trivia

/-- No token begins with a blank. -/
lemma isBlank_of_atToken {ch : Char} {rest : List Char} {offset : Nat}
    (h : Cursor.AtToken ⟨ch :: rest, offset⟩) : isBlank ch = false := by
  by_contra hblank
  rw [Bool.not_eq_false] at hblank
  -- a blank would be skipped, so that the scan ended further on
  have hslash : ch ≠ '/' := by
    rintro rfl
    exact absurd hblank (by decide)
  rw [Cursor.AtToken, triviaAt?, skipTrivia_outside_cons (fun _ hch => absurd hch hslash)
    (fun _ hch => absurd hch hslash), if_pos hblank] at h
  have hle := (skipTrivia_eq_some h (Nat.le_refl _)).1.offset_le
  have hpos := ch.utf8Size_pos
  simp only at hle
  omega

/-! ### Readers of tokens -/

namespace Token

instance : Moves trivia where
  reaches := by
    intro c t d h
    obtain ⟨t, ht, heq⟩ := Option.map_eq_some_iff.1 h
    obtain ⟨-, rfl⟩ := Prod.mk.inj heq
    exact reaches_next ht

instance : Stays ahead where
  eq := by
    intro c t d h
    obtain ⟨t, -, heq⟩ := Option.map_eq_some_iff.1 h
    exact (Prod.mk.inj heq).2.symm

instance : Stays newlineAhead where
  eq := by
    intro c t d h
    obtain ⟨t, -, heq⟩ := Option.map_eq_some_iff.1 h
    exact (Prod.mk.inj heq).2.symm

instance (n : Nat) : Moves (take n) := inferInstanceAs (Moves (trivia >>= fun _ => skip n))

instance : Stays peekWord := inferInstanceAs (Stays (ahead >>= fun cs => pure (nameAt? cs)))

instance : Moves word := by
  unfold word
  refine Moves.bind fun cs => ?_
  split <;> infer_instance

instance (w : String) : Moves (keyword w) := by
  unfold keyword
  infer_instance

instance (s : String) : Stays (looksAt s) := by
  unfold looksAt
  infer_instance

instance (s : String) : Moves (punct s) := by
  unfold punct
  infer_instance

instance (choices : List String) : Moves (punctOf choices) := by
  unfold punctOf
  refine Moves.bind fun cs => ?_
  split <;> infer_instance

instance : Moves assign := by
  unfold assign
  refine Moves.bind fun cs => ?_
  split <;> infer_instance

instance : Moves stringLiteral := by
  unfold stringLiteral
  refine Moves.bind fun cs => ?_
  split
  · refine Moves.bind fun _ => ?_
    split <;> infer_instance
  · infer_instance

instance : Moves numberLiteral := by
  unfold numberLiteral
  infer_instance

instance : Moves regexLiteral := by
  unfold regexLiteral
  refine Moves.bind fun cs => ?_
  split
  · split <;> infer_instance
  · infer_instance

instance : Moves privateName := by
  unfold privateName
  refine Moves.bind fun cs => ?_
  split <;> infer_instance

instance : Stays behindGroup := by
  unfold behindGroup
  refine Stays.bind fun cs => ?_
  split <;> infer_instance

end Token

/-! ### Names -/

lemma ne_nil_of_startsName {text : List Char} (h : startsName text = true) : text ≠ [] := by
  rintro rfl
  exact absurd h (by decide)

lemma nameLength_pos {text : List Char} (h : startsName text = true) :
    0 < nameLength .plain text := by
  rw [startsName.eq_def] at h
  rw [nameLength.eq_def]
  split at h
  · split <;> grind
  · split <;> grind [isNameStart]
  · cases h

/-- A name is not empty. -/
lemma ne_nil_and_length_pos_of_nameAt? {text : List Char} {w : String}
    (h : nameAt? text = some w) : text ≠ [] ∧ 0 < w.length := by
  rw [nameAt?, Option.ite_none_right_eq_some] at h
  obtain ⟨hstarts, hw⟩ := h
  have hrest := ne_nil_of_startsName hstarts
  refine ⟨hrest, ?_⟩
  rw [← Option.some.inj hw, String.length_ofList, List.length_take]
  exact Nat.lt_min.2 ⟨nameLength_pos hstarts, List.length_pos_iff.2 hrest⟩

namespace Token

lemma ahead_eq_some_iff {c d : Cursor} {cs : List Char} :
    ahead c = some (cs, d) ↔ ∃ t, triviaAt? c = some t ∧ t.next.rest = cs ∧ d = c := by
  rw [ahead, Option.map_eq_some_iff]
  simp only [Prod.mk.injEq, eq_comm]

lemma here_eq_some {c d : Cursor} {s : Nat} (h : here c = some (s, d)) :
    ∃ t, triviaAt? c = some t ∧ t.next.offset = s ∧ t.next = d := by
  obtain ⟨t, e, htrivia, hpure⟩ := bind_eq_some_iff.1 h
  obtain ⟨t', ht, heq⟩ := Option.map_eq_some_iff.1 htrivia
  cases hpure
  cases heq
  exact ⟨t, ht, rfl, rfl⟩

/-- Characters that are taken from the next token on lead behind its beginning. -/
lemma offset_lt_of_take {n : Nat} {c d : Cursor} {cs : List Char} {t : Trivia}
    (ht : triviaAt? c = some t) (hn : 0 < n) (hrest : t.next.rest ≠ [])
    (h : take n c = some (cs, d)) : c.offset < d.offset := by
  obtain ⟨t', e, htrivia, hskip⟩ := bind_eq_some_iff.1 h
  rw [trivia, ht] at htrivia
  cases htrivia
  cases hskip
  exact Nat.lt_of_le_of_lt (reaches_next ht).offset_le (Cursor.offset_lt_advance hn hrest)

instance : Advances word where
  lt := by
    intro c w d h
    obtain ⟨cs, e, hahead, hword⟩ := bind_eq_some_iff.1 h
    obtain ⟨t, ht, rfl, rfl⟩ := ahead_eq_some_iff.1 hahead
    cases hname : nameAt? t.next.rest with
    | none =>
      rw [hname] at hword
      cases hword
    | some w' =>
      rw [hname] at hword
      obtain ⟨_, d', htake, hpure⟩ := bind_eq_some_iff.1 hword
      cases hpure
      obtain ⟨hrest, hlength⟩ := ne_nil_and_length_pos_of_nameAt? hname
      exact offset_lt_of_take ht hlength hrest htake

instance : Advances plainName := by
  unfold plainName
  infer_instance

/-- Whoever reads a mark passes it. -/
lemma offset_lt_of_punct {s : String} (hs : s.toList ≠ []) {c d : Cursor} {u : Unit}
    (h : punct s c = some (u, d)) : c.offset < d.offset := by
  obtain ⟨b, e, hlooks, hmark⟩ := bind_eq_some_iff.1 h
  obtain ⟨cs, e, hahead, hpure⟩ := bind_eq_some_iff.1 hlooks
  obtain ⟨t, ht, rfl, rfl⟩ := ahead_eq_some_iff.1 hahead
  cases hpure
  obtain ⟨_, e, hrequire, hread⟩ := bind_eq_some_iff.1 hmark
  obtain ⟨hbegins, rfl⟩ := require_eq_some_iff.1 hrequire
  obtain ⟨cs, e, htake, hpure⟩ := bind_eq_some_iff.1 hread
  cases hpure
  refine offset_lt_of_take ht ?_ (List.IsPrefix.ne_nil (List.isPrefixOf_iff_prefix.1 hbegins) hs)
    htake
  exact String.length_toList ▸ List.length_pos_iff.2 hs

end Token

end Syntax

end IdentityLint
