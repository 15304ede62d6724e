import IdentityLint.Proofs.PathOrder

/-!
# Trimming and cutting texts

What the operations on texts do, said by the texts they take apart: `after?` and `cut?` find a word
and a character, `trim` takes blanks away from both ends (`trim_eq_iff`).  A word or a character
that is not blank can be looked for before or behind trimming (`after?_trim_eq_some_iff`,
`cut?_trim`).
-/

namespace IdentityLint.Text

variable {s t : List Char}

/-! ### Words and characters -/

lemma after?_eq_some_iff {word rest : List Char} :
    after? word s = some rest ↔ s = word ++ rest := by
  induction word generalizing s with
  | nil => simp [after?, eq_comm]
  | cons c word ih =>
    cases s with
    | nil => simp [after?]
    | cons d s =>
      by_cases hc : c = d
      · simp [after?, hc, ih]
      · simp [after?, hc, Ne.symm hc]

lemma cut?_append {c : Char} {front : List Char} (h : c ∉ front) (back : List Char) :
    cut? c (front ++ c :: back) = some (front, back) := by
  induction front with
  | nil => simp [cut?]
  | cons d front ih =>
    rw [List.mem_cons, not_or] at h
    simp [cut?, Ne.symm h.1, ih h.2]

lemma cut?_eq_none_iff {c : Char} : cut? c s = none ↔ c ∉ s := by
  induction s with
  | nil => simp [cut?]
  | cons d s ih =>
    by_cases hd : d = c
    · simp [cut?, hd]
    · simp [cut?, hd, Ne.symm hd, ih]

/-- The text is cut at the first occurrence of the character. -/
lemma cut?_eq_some_iff {c : Char} {front back : List Char} :
    cut? c s = some (front, back) ↔ s = front ++ c :: back ∧ c ∉ front := by
  constructor
  · intro h
    have hmem : c ∈ s := by
      by_contra hnot
      rw [cut?_eq_none_iff.2 hnot] at h
      cases h
    obtain ⟨front', back', rfl, hfront⟩ := List.eq_append_cons_of_mem hmem
    rw [cut?_append hfront] at h
    obtain ⟨rfl, rfl⟩ := Prod.mk.inj (Option.some.inj h)
    exact ⟨rfl, hfront⟩
  · rintro ⟨rfl, hfront⟩
    exact cut?_append hfront back

/-- Behind a run of one character comes another one. -/
lemma head?_dropWhile_eq_some_iff {c d : Char} (hdc : d ≠ c) :
    (s.dropWhile (· == c)).head? = some d ↔ ∃ n rest, s = List.replicate n c ++ d :: rest := by
  induction s with
  | nil => simp
  | cons e s ih =>
    by_cases he : e = c
    · subst he
      rw [List.dropWhile_cons_of_pos (by simp), ih]
      constructor
      · rintro ⟨n, rest, rfl⟩
        exact ⟨n + 1, rest, rfl⟩
      · rintro ⟨n, rest, h⟩
        cases n with
        | zero => exact absurd (List.cons.inj h).1.symm hdc
        | succ n => exact ⟨n, rest, (List.cons.inj h).2⟩
    · rw [List.dropWhile_cons_of_neg (by simpa using he), List.head?_cons, Option.some.injEq]
      constructor
      · rintro rfl
        exact ⟨0, s, rfl⟩
      · rintro ⟨n, rest, h⟩
        cases n with
        | zero => exact (List.cons.inj h).1
        | succ n => exact absurd (List.cons.inj h).1 he

/-! ### Blanks at the ends -/

/-- The text consists of blanks. -/
def Blank (s : List Char) : Prop := ∀ c ∈ s, isSpace c = true

/-- There is no blank at either end of the text. -/
structure Trimmed (s : List Char) : Prop where
  head : ∀ c ∈ s.head?, isSpace c = false
  last : ∀ c ∈ s.getLast?, isSpace c = false

lemma trimmed_iff :
    Trimmed s ↔ s.head?.all (!isSpace ·) = true ∧ s.getLast?.all (!isSpace ·) = true := by
  simp only [Option.all_eq_true, Bool.not_eq_true']
  exact ⟨fun h => ⟨h.head, h.last⟩, fun h => ⟨h.1, h.2⟩⟩

instance (s : List Char) : Decidable (Trimmed s) := decidable_of_iff' _ trimmed_iff

/-- The text is `core` with blanks around it. -/
structure TrimsTo (s core : List Char) : Prop where
  trimmed : Trimmed core
  around : ∃ front back, Blank front ∧ Blank back ∧ s = front ++ core ++ back

lemma blank_nil : Blank [] := fun _ h => nomatch h

lemma blank_space : Blank [' '] := by
  intro c hc
  obtain rfl : c = ' ' := List.mem_singleton.1 hc
  decide

lemma Blank.reverse (h : Blank s) : Blank s.reverse := fun c hc => h c (List.mem_reverse.1 hc)

lemma Blank.append (hs : Blank s) (ht : Blank t) : Blank (s ++ t) :=
  List.forall_mem_append.2 ⟨hs, ht⟩

lemma trimStart_append (hs : Blank s) (ht : ∀ c ∈ t.head?, isSpace c = false) :
    trimStart (s ++ t) = t := by
  rw [trimStart, List.dropWhile_append_of_pos hs]
  cases t with
  | nil => rfl
  | cons c t => exact List.dropWhile_cons_of_neg (by simp [ht c rfl])

lemma trimEnd_append (hs : ∀ c ∈ s.getLast?, isSpace c = false) (ht : Blank t) :
    trimEnd (s ++ t) = s := by
  rw [trimEnd, List.reverse_append, ← trimStart, trimStart_append ht.reverse (by simpa using hs),
    List.reverse_reverse]

lemma exists_eq_append_trimStart (s : List Char) :
    ∃ front, Blank front ∧ s = front ++ trimStart s :=
  ⟨s.takeWhile isSpace, fun _ hc => List.mem_takeWhile_imp hc,
    List.takeWhile_append_dropWhile.symm⟩

lemma exists_eq_trimEnd_append (s : List Char) : ∃ back, Blank back ∧ s = trimEnd s ++ back := by
  obtain ⟨back, hback, hs⟩ := exists_eq_append_trimStart s.reverse
  refine ⟨back.reverse, hback.reverse, ?_⟩
  rw [trimEnd, ← List.reverse_append, ← trimStart, ← hs, List.reverse_reverse]

lemma head_trimStart (s : List Char) : ∀ c ∈ (trimStart s).head?, isSpace c = false := by
  intro c hc
  have h := List.head?_dropWhile_not isSpace s
  rw [← trimStart, Option.mem_def.1 hc] at h
  simpa using h

lemma last_trimEnd (s : List Char) : ∀ c ∈ (trimEnd s).getLast?, isSpace c = false := by
  rw [trimEnd, List.getLast?_reverse]
  exact head_trimStart s.reverse

lemma trimsTo_trim (s : List Char) : TrimsTo s (trim s) := by
  obtain ⟨front, hfront, hs⟩ := exists_eq_append_trimStart s
  obtain ⟨back, hback, hstart⟩ := exists_eq_trimEnd_append (trimStart s)
  refine ⟨⟨fun c hc => head_trimStart s c ?_, last_trimEnd _⟩, front, back, hfront, hback, ?_⟩
  · -- what is left begins as before the blanks at the end were taken away
    rw [hstart, List.head?_append, ← trim, Option.mem_def.1 hc]
    rfl
  · rw [List.append_assoc, trim, ← hstart, ← hs]

/-- What `trim` leaves is the text without the blanks around it. -/
lemma trim_eq_iff {core : List Char} : trim s = core ↔ TrimsTo s core := by
  constructor
  · rintro rfl
    exact trimsTo_trim s
  · rintro ⟨⟨hhead, hlast⟩, front, back, hfront, hback, rfl⟩
    cases core with
    | nil =>
      rw [List.append_nil, trim, ← List.append_nil (front ++ back),
        trimStart_append (hfront.append hback) (by simp)]
      rfl
    | cons c core =>
      rw [List.append_assoc, trim, trimStart_append hfront (by simpa using hhead),
        trimEnd_append hlast hback]

lemma Trimmed.trim_eq (h : Trimmed s) : trim s = s :=
  trim_eq_iff.2 ⟨h, [], [], blank_nil, blank_nil, by simp⟩

/-- Blanks that are there or not make no difference. -/
lemma trim_eq_trim {front back : List Char} (hfront : Blank front) (hback : Blank back) :
    trim (front ++ s ++ back) = trim s := by
  obtain ⟨htrimmed, front', back', hfront', hback', hs⟩ := trimsTo_trim s
  refine trim_eq_iff.2 ⟨htrimmed, front ++ front', back' ++ back, hfront.append hfront',
    hback'.append hback, ?_⟩
  conv_lhs => rw [hs]
  simp only [List.append_assoc]

lemma trim_trimEnd (s : List Char) : trim (trimEnd s) = trim s := by
  obtain ⟨back, hback, hs⟩ := exists_eq_trimEnd_append s
  have h := trim_eq_trim (s := trimEnd s) blank_nil hback
  rw [List.nil_append, ← hs] at h
  exact h.symm

/-! ### Looking behind blanks -/

/-- Blanks at the end are taken away as far as to a character that is none. -/
lemma trimEnd_append_of_last (hlast : ∀ c ∈ s.getLast?, isSpace c = false) :
    trimEnd (s ++ t) = s ++ trimEnd t := by
  obtain ⟨back, hback, ht⟩ := exists_eq_trimEnd_append t
  have hwhole : ∀ c ∈ (s ++ trimEnd t).getLast?, isSpace c = false := by
    intro c hc
    rw [List.getLast?_append] at hc
    cases h : (trimEnd t).getLast? with
    | none => exact hlast c (by simpa [h] using hc)
    | some d => exact last_trimEnd t c (by simpa [h] using hc)
  conv_lhs => rw [ht]
  rw [← List.append_assoc, trimEnd_append hwhole hback]

/-- A word at the beginning of a trimmed text is one behind blanks. -/
lemma after?_trim_eq_some_iff {word rest : List Char} (hword : Trimmed word) (hne : word ≠ []) :
    after? word (trim s) = some rest ↔
      ∃ blanks back, Blank blanks ∧ s = blanks ++ word ++ back ∧ rest = trimEnd back := by
  rw [after?_eq_some_iff]
  constructor
  · intro h
    obtain ⟨htrimmed, front, back, hfront, hback, hs⟩ := trimsTo_trim s
    rw [h] at htrimmed hs
    refine ⟨front, rest ++ back, hfront, by rw [hs]; simp only [List.append_assoc], ?_⟩
    refine (trimEnd_append (fun c hc => htrimmed.last c ?_) hback).symm
    rw [List.getLast?_append, Option.mem_def.1 hc]
    rfl
  · rintro ⟨blanks, back, hblanks, rfl, rfl⟩
    have hhead : ∀ c ∈ (word ++ back).head?, isSpace c = false := by
      rw [List.head?_append_of_ne_nil _ hne]
      exact hword.head
    rw [List.append_assoc, trim, trimStart_append hblanks hhead,
      trimEnd_append_of_last hword.last]

variable {c : Char} (hc : isSpace c = false)

include hc

lemma cut?_trimStart (s : List Char) :
    cut? c (trimStart s) = (cut? c s).map fun r => (trimStart r.1, r.2) := by
  obtain ⟨blanks, hblanks, hs⟩ := exists_eq_append_trimStart s
  have hnot : c ∉ blanks := fun h => by simp [hblanks c h] at hc
  cases h : cut? c (trimStart s) with
  | none =>
    have hmem : c ∉ s := by
      rw [hs, List.mem_append, not_or]
      exact ⟨hnot, cut?_eq_none_iff.1 h⟩
    rw [cut?_eq_none_iff.2 hmem]
    rfl
  | some r =>
    obtain ⟨front, back⟩ := r
    obtain ⟨hstart, hfront⟩ := cut?_eq_some_iff.1 h
    -- the blanks belong to the first part
    have hhead : ∀ d ∈ front.head?, isSpace d = false := by
      intro d hd
      refine head_trimStart s d ?_
      rw [hstart, List.head?_append, Option.mem_def.1 hd]
      rfl
    have hcut : cut? c s = some (blanks ++ front, back) := by
      refine cut?_eq_some_iff.2 ⟨by rw [hs, hstart, List.append_assoc], ?_⟩
      rw [List.mem_append, not_or]
      exact ⟨hnot, hfront⟩
    rw [hcut, Option.map_some, trimStart_append hblanks hhead]

lemma cut?_trimEnd (s : List Char) :
    cut? c (trimEnd s) = (cut? c s).map fun r => (r.1, trimEnd r.2) := by
  obtain ⟨blanks, hblanks, hs⟩ := exists_eq_trimEnd_append s
  cases h : cut? c s with
  | none =>
    have hmem : c ∉ trimEnd s := by
      intro hmem
      rw [cut?_eq_none_iff, hs, List.mem_append, not_or] at h
      exact h.1 hmem
    rw [cut?_eq_none_iff.2 hmem]
    rfl
  | some r =>
    obtain ⟨front, back⟩ := r
    obtain ⟨rfl, hfront⟩ := cut?_eq_some_iff.1 h
    rw [List.append_cons, trimEnd_append_of_last (by simp [hc]), ← List.append_cons,
      cut?_append hfront]
    rfl

/-- Trimming does not reach over the character at which a text is cut. -/
lemma cut?_trim (s : List Char) :
    cut? c (trim s) = (cut? c s).map fun r => (trimStart r.1, trimEnd r.2) := by
  rw [trim, cut?_trimEnd hc, cut?_trimStart hc, Option.map_map]
  rfl

/-- Blanks in front of a text do not change its pieces, trimmed. -/
lemma map_trim_splitAt_append {blanks : List Char} (hblanks : Blank blanks) (s : List Char) :
    (splitAt c (blanks ++ s)).map trim = (splitAt c s).map trim := by
  induction blanks with
  | nil => rfl
  | cons d blanks ih =>
    have hd : isSpace d = true := hblanks d List.mem_cons_self
    have hne : (d == c) = false := by
      rw [beq_eq_false_iff_ne]
      rintro rfl
      simp [hd] at hc
    rw [← ih fun e he => hblanks e (List.mem_cons_of_mem _ he), List.cons_append, splitAt, hne]
    cases h : splitAt c (blanks ++ s) with
    | nil =>
      rw [splitAt_eq_splitOn] at h
      exact absurd h (List.splitOn_ne_nil _ _)
    | cons p ps =>
      have hblank : Blank [d] := by simpa [Blank] using hd
      have htrim := trim_eq_trim (s := p) hblank blank_nil
      rw [List.append_nil, List.singleton_append] at htrim
      simp [htrim]

end IdentityLint.Text
