import IdentityLint.Parse
import Mathlib.Data.String.Basic

/-!
# What readers do to the cursor

A reader that succeeds has passed some characters of the text, and the offset has grown by their
bytes (`Cursor.Reaches`).  `Parse.Moves` says so of a single reader, and `Parse.Stays` and
`Parse.Advances` say that it passes nothing and that it passes something.  They are classes, so they
are found for every reader that is put together from others.

What a reader yields is stated as a triple, `Parse.Ensures text pre p post`: from every place of the
text at which `pre` holds, `p` moves ahead to a place at which `post` holds.  Each way of putting
readers together has one rule.
-/

namespace IdentityLint

/-! ### Places -/

namespace Cursor

/-- A place is reached from another one by passing characters. -/
def Reaches (c d : Cursor) : Prop :=
  ∃ passed, c.rest = passed ++ d.rest ∧ d.offset = c.offset + String.utf8Len passed

@[refl] lemma Reaches.refl (c : Cursor) : c.Reaches c := ⟨[], rfl, rfl⟩

lemma Reaches.trans {c d e : Cursor} (hcd : c.Reaches d) (hde : d.Reaches e) : c.Reaches e := by
  obtain ⟨s, hs, hds⟩ := hcd
  obtain ⟨t, ht, het⟩ := hde
  refine ⟨s ++ t, by rw [hs, ht, List.append_assoc], ?_⟩
  rw [het, hds, String.utf8Len_append, Nat.add_assoc]

lemma Reaches.offset_le {c d : Cursor} (h : c.Reaches d) : c.offset ≤ d.offset := by
  obtain ⟨s, -, hs⟩ := h
  omega

lemma reaches_cons (ch : Char) (rest : List Char) (offset : Nat) :
    Reaches ⟨ch :: rest, offset⟩ ⟨rest, offset + ch.utf8Size⟩ :=
  ⟨[ch], rfl, by simp⟩

lemma reaches_advance (n : Nat) (c : Cursor) : c.Reaches (c.advance n) := by
  fun_induction advance n c with
  | case1 c => rfl
  | case2 n ch rest offset ih => exact (reaches_cons ch rest offset).trans ih
  | case3 n offset => rfl

/-- Behind at least one character the offset is larger. -/
lemma offset_lt_advance {n : Nat} {c : Cursor} (hn : 0 < n) (hrest : c.rest ≠ []) :
    c.offset < (c.advance n).offset := by
  obtain ⟨n, rfl⟩ := Nat.exists_eq_succ_of_ne_zero (Nat.ne_of_gt hn)
  obtain ⟨rest, offset⟩ := c
  cases rest with
  | nil => exact absurd rfl hrest
  | cons ch rest =>
    have hle := (reaches_advance n ⟨rest, offset + ch.utf8Size⟩).offset_le
    have hpos := ch.utf8Size_pos
    rw [advance]
    simp only at hle ⊢
    omega

/-- The place belongs to a text: it is reached from the beginning. -/
def Within (text : List Char) (c : Cursor) : Prop := (start text).Reaches c

lemma Within.offset_le {text : List Char} {c : Cursor} (h : c.Within text) :
    c.offset ≤ String.utf8Len text := by
  obtain ⟨passed, htext, hoffset⟩ := h
  rw [hoffset, show text = passed ++ c.rest from htext, String.utf8Len_append]
  simp [start]

end Cursor

namespace Parse

variable {α β : Type} {p p' : Parse α} {q : Parse β} {k : α → Parse β}

lemma bind_eq_some_iff {c : Cursor} {r : β × Cursor} :
    (p >>= k) c = some r ↔ ∃ a d, p c = some (a, d) ∧ k a d = some r := by
  have hbind : (p >>= k) c = (p c).bind fun x => k x.1 x.2 := rfl
  rw [hbind, Option.bind_eq_some_iff]
  exact ⟨fun ⟨x, hx, hk⟩ => ⟨x.1, x.2, hx, hk⟩, fun ⟨a, d, hp, hk⟩ => ⟨(a, d), hp, hk⟩⟩

lemma or_of_orElse_eq_some {c : Cursor} {r : α × Cursor} (h : (p <|> p') c = some r) :
    p c = some r ∨ p' c = some r := by
  have horElse : (p <|> p') c = (p c <|> p' c) := rfl
  rw [horElse] at h
  cases hp : p c with
  | none => exact Or.inr (by simpa [hp] using h)
  | some x => exact Or.inl (by simpa [hp] using h)

lemma or_of_optionD_eq_some {x a : α} {c d : Cursor} (h : optionD x p c = some (a, d)) :
    p c = some (a, d) ∨ a = x ∧ d = c := by
  rw [optionD] at h
  split at h
  · next r hr => exact Or.inl (hr.trans h)
  · cases h
    exact Or.inr ⟨rfl, rfl⟩

lemma require_eq_some_iff {b : Bool} {u : Unit} {c d : Cursor} :
    require b c = some (u, d) ↔ b = true ∧ d = c := by
  rw [require]
  cases b <;> simp [eq_comm]

/-- Where nothing was read, the reader has stayed. -/
lemma eq_of_many_eq_nil {c d : Cursor} (h : many p c = some ([], d)) : d = c := by
  have hgo := Option.some.inj h
  rw [many.go.eq_def] at hgo
  split at hgo
  · exact (Prod.mk.inj hgo).2.symm
  · split at hgo
    · cases hgo
    · exact (Prod.mk.inj hgo).2.symm

/-! ### Moving ahead -/

/-- Whenever the reader succeeds, it has moved ahead or stayed. -/
class Moves (p : Parse α) : Prop where
  reaches : ∀ ⦃c a d⦄, p c = some (a, d) → c.Reaches d

/-- The reader only looks. -/
class Stays (p : Parse α) : Prop where
  eq : ∀ ⦃c a d⦄, p c = some (a, d) → d = c

/-- Whenever the reader succeeds, it has passed at least one character. -/
class Advances (p : Parse α) : Prop extends Moves p where
  lt : ∀ ⦃c a d⦄, p c = some (a, d) → c.offset < d.offset

instance [hp : Stays p] : Moves p where
  reaches c a d h := by
    rw [hp.eq h]

namespace Stays

instance (a : α) : Stays (pure a : Parse α) where
  eq := by
    rintro c _ d ⟨⟩
    rfl

instance : Stays (failure : Parse α) where
  eq := by
    rintro c a d ⟨⟩

lemma bind [hp : Stays p] (hk : ∀ a, Stays (k a)) : Stays (p >>= k) where
  eq := by
    intro c b e h
    obtain ⟨a, d, ha, hb⟩ := bind_eq_some_iff.1 h
    rw [(hk a).eq hb, hp.eq ha]

instance [Stays p] [∀ a, Stays (k a)] : Stays (p >>= k) := bind inferInstance

instance : Stays (get : Parse Cursor) where
  eq := by
    rintro c _ d ⟨⟩
    rfl

instance : Stays behind :=
  inferInstanceAs (Stays ((get : Parse Cursor) >>= fun c => pure c.offset))

instance : Stays (peek p) where
  eq := by
    intro c a d h
    obtain ⟨r, -, hr⟩ := Option.map_eq_some_iff.1 h
    exact (Prod.mk.inj hr).2.symm

instance : Stays (absent p) where
  eq := by
    intro c a d h
    rw [absent] at h
    split at h <;> cases h
    rfl

instance (b : Bool) : Stays (require b) where
  eq _ _ _ h := (require_eq_some_iff.1 h).2

end Stays

namespace Moves

lemma bind [hp : Moves p] (hk : ∀ a, Moves (k a)) : Moves (p >>= k) where
  reaches := by
    intro c b e h
    obtain ⟨a, d, ha, hb⟩ := bind_eq_some_iff.1 h
    exact (hp.reaches ha).trans ((hk a).reaches hb)

instance [Moves p] [∀ a, Moves (k a)] : Moves (p >>= k) := bind inferInstance

instance [Moves p] [Moves q] : Moves (p *> q) := inferInstanceAs (Moves (p >>= fun _ => q))

instance [Moves p] : Moves (discard p) := inferInstanceAs (Moves (p >>= fun _ => pure ()))

instance orElse [hp : Moves p] [hp' : Moves p'] : Moves (p <|> p') where
  reaches _ _ _ h := (or_of_orElse_eq_some h).elim (@hp.reaches _ _ _) (@hp'.reaches _ _ _)

instance (n : Nat) : Moves (skip n) where
  reaches := by
    rintro c _ d ⟨⟩
    exact Cursor.reaches_advance n c

instance (x : α) [hp : Moves p] : Moves (optionD x p) where
  reaches := by
    intro c a d h
    rcases or_of_optionD_eq_some h with h | ⟨-, rfl⟩
    · exact hp.reaches h
    · rfl

instance [Moves p] : Moves (attempt p) :=
  inferInstanceAs (Moves (optionD false (p *> pure true)))

instance many [hp : Moves p] : Moves (many p) where
  reaches := by
    intro c as d h
    have hgo : c.Reaches (many.go p c).2 := by
      clear h
      fun_induction many.go p c with
      | case1 c hnone => rfl
      | case2 c a d ha hlt r ih => exact (hp.reaches ha).trans ih
      | case3 c a d ha hge => rfl
    rwa [Option.some.inj h] at hgo

end Moves

instance [hp : Advances p] [hk : ∀ a, Moves (k a)] : Advances (p >>= k) where
  lt := by
    intro c b e h
    obtain ⟨a, d, ha, hb⟩ := bind_eq_some_iff.1 h
    exact Nat.lt_of_lt_of_le (hp.lt ha) ((hk a).reaches hb).offset_le

/-! ### Triples -/

/-- From the places of a text at which `pre` holds, the reader moves ahead to places at which `post`
holds of what it has read. -/
def Ensures (text : List Char) (pre : Cursor → Prop) (p : Parse α) (post : α → Cursor → Prop) :
    Prop :=
  ∀ ⦃c⦄, c.Within text → pre c → ∀ ⦃a d⦄, p c = some (a, d) → c.Reaches d ∧ post a d

namespace Ensures

variable {text : List Char} {pre pre' : Cursor → Prop} {post : α → Cursor → Prop}
  {last : β → Cursor → Prop}

lemma weaken (h : Ensures text pre p post) (hpre : ∀ c, pre' c → pre c) :
    Ensures text pre' p post :=
  fun c hc hpre' => h hc (hpre c hpre')

lemma pure {a : α} (h : ∀ c, pre c → post a c) : Ensures text pre (Pure.pure a) post := by
  rintro c - hpre _ d ⟨⟩
  exact ⟨.refl c, h c hpre⟩

lemma failure : Ensures text pre (failure : Parse α) post := by
  rintro c - - a d ⟨⟩

lemma bind (hp : Ensures text pre p post) (hk : ∀ a, Ensures text (post a) (k a) last) :
    Ensures text pre (p >>= k) last := by
  intro c hc hpre b e h
  obtain ⟨a, d, ha, hb⟩ := bind_eq_some_iff.1 h
  obtain ⟨hcd, hpost⟩ := hp hc hpre ha
  obtain ⟨hde, hlast⟩ := hk a (hc.trans hcd) hpost hb
  exact ⟨hcd.trans hde, hlast⟩

lemma orElse (hp : Ensures text pre p post) (hp' : Ensures text pre p' post) :
    Ensures text pre (p <|> p') post := by
  intro c hc hpre a d h
  rcases or_of_orElse_eq_some h with h | h
  · exact hp hc hpre h
  · exact hp' hc hpre h

lemma optionD {x : α} (hp : Ensures text pre p post) (hx : ∀ c, pre c → post x c) :
    Ensures text pre (optionD x p) post := by
  intro c hc hpre a d h
  rcases or_of_optionD_eq_some h with h | ⟨rfl, rfl⟩
  · exact hp hc hpre h
  · exact ⟨.refl d, hx d hpre⟩

/-- What is read one after the other, if `inv` relates the items to the offsets that they lie
between. -/
lemma many (inv : Nat → Nat → List α → Prop) (hnil : ∀ i, inv i i [])
    (hcons : ∀ ⦃c⦄, c.Within text → ∀ ⦃a d⦄, p c = some (a, d) →
      c.Reaches d ∧ ∀ ⦃e as⦄, inv d.offset e as → inv c.offset e (a :: as)) (s : Nat) :
    Ensures text (fun c => c.offset = s) (many p) fun as c => inv s c.offset as := by
  rintro c hc rfl as d h
  have hgo : c.Reaches (many.go p c).2 ∧
      inv c.offset (many.go p c).2.offset (many.go p c).1 := by
    clear h
    fun_induction many.go p c with
    | case1 c hnone => exact ⟨.refl c, hnil c.offset⟩
    | case2 c a d ha hlt r ih =>
      obtain ⟨hcd, hinv⟩ := hcons hc ha
      obtain ⟨hde, hrest⟩ := ih (hc.trans hcd)
      exact ⟨hcd.trans hde, hinv hrest⟩
    | case3 c a d ha hge => exact ⟨.refl c, hnil c.offset⟩
  rwa [Option.some.inj h] at hgo

/-- What one extension keeps, all of them keep. -/
lemma iterate {step : α → Parse α} {inv : α → Cursor → Prop}
    (hstep : ∀ a, Ensures text (inv a) (step a) inv) (a : α) :
    Ensures text (inv a) (iterate step a) inv := by
  intro c hc hinv b d h
  have hgo : c.Reaches (iterate.go step a c).2 ∧
      inv (iterate.go step a c).1 (iterate.go step a c).2 := by
    clear h
    fun_induction iterate.go step a c with
    | case1 a c hnone => exact ⟨.refl c, hinv⟩
    | case2 a c a' d ha hlt ih =>
      obtain ⟨hcd, hinv'⟩ := hstep a hc hinv ha
      obtain ⟨hde, hlast⟩ := ih (hc.trans hcd) hinv'
      exact ⟨hcd.trans hde, hlast⟩
    | case3 a c a' d ha hge => exact ⟨.refl c, hinv⟩
  rwa [Option.some.inj h] at hgo

end Ensures

end Parse

end IdentityLint
