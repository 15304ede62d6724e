import IdentityLint.Proofs.Spans
import IdentityLint.Proofs.TokenPlaces
import IdentityLint.Syntax.Grammar.Basic

/-!
# Nodes where they were read

A reader that reads a construct without a node of its own yields the nodes inside it.  They stand
one behind the other between the place where the reader began and the place that it reached, and
everything about their spans is in order (`Laid`).  A reader of a node yields one that begins at the
next token.

A reader of the grammar collects the nodes that its parts yield.  So a proof about it follows its
text: `Behind lo done` says of the cursor that the nodes `done` have been read since `lo`, and there
is one rule for each kind of step.  Where a node begins, the cursor first `Opens` it; `Begins` says
that it has been read.
-/

namespace IdentityLint.Syntax

open Parse Token

variable {α β : Type} (text : List Char)

/-! ### Spans in a text -/

/-- A token of the text begins at an offset. -/
def TokenAt (offset : Nat) : Prop := ∃ c : Cursor, c.Within text ∧ c.AtToken ∧ c.offset = offset

/-- A character of the text begins at an offset, or the text ends there. -/
def PlaceAt (offset : Nat) : Prop := ∃ c : Cursor, c.Within text ∧ c.offset = offset

namespace Node

/-- The span of a node is in order, and unless the node is a comment, it begins with a token. -/
structure Sits (n : Node) : Prop where
  spanned : n.Spanned
  opens : n.isPart = true → TokenAt text n.span.start
  closes : n.isPart = true → PlaceAt text n.span.stop

/-- The spans of all nodes of a tree are in order. -/
def Placed (n : Node) : Prop := ∀ x ∈ n.preorder, x.Sits text

end Node

/-- Nodes that stand one behind the other between two offsets. -/
structure Laid (lo hi : Nat) (ns : Forest) : Prop where
  spread : Span.Spread lo hi (ns.map Node.span)
  placed : ∀ n ∈ ns, n.Placed text

variable {text}

namespace Laid

variable {lo mid hi : Nat} {ns ms : Forest}

lemma le (h : Laid text lo hi ns) : lo ≤ hi := h.spread.le

lemma nil (h : lo ≤ hi) : Laid text lo hi [] := ⟨h, by simp⟩

lemma append (hns : Laid text lo mid ns) (hms : Laid text mid hi ms) :
    Laid text lo hi (ns ++ ms) where
  spread := by
    rw [List.map_append]
    exact hns.spread.append hms.spread
  placed n hn := (List.mem_append.1 hn).elim (hns.placed n) (hms.placed n)

lemma widen_left (h : Laid text mid hi ns) (hlo : lo ≤ mid) : Laid text lo hi ns :=
  ⟨h.spread.widen_left hlo, h.placed⟩

lemma widen_right (h : Laid text lo mid ns) (hhi : mid ≤ hi) : Laid text lo hi ns :=
  ⟨h.spread.widen_right hhi, h.placed⟩

end Laid

/-! ### Making nodes -/

/-- Is nothing demanded of the children of the nodes of a form but that they are in order? -/
def Form.isPlain : Form → Bool
  | call | member _ | identifier _ | parenthesized | comment => false
  | _ => true

section Spanned

variable {i s e : Nat} {form : Form} {children : Forest}

lemma ordered_and_inside (h : Span.Spread s e (children.map Node.span)) :
    (children.Pairwise fun c d => c.span.stop ≤ d.span.start) ∧
      ∀ c ∈ children, s ≤ c.span.start ∧ c.span.stop ≤ e := by
  refine ⟨List.pairwise_map.1 h.pairwise, fun c hc => ?_⟩
  obtain ⟨hlo, -, hhi⟩ := h.of_mem (List.mem_map_of_mem hc)
  exact ⟨hlo, hhi⟩

lemma spanned_of_isPlain (hform : form.isPlain = true)
    (h : Span.Spread s e (children.map Node.span)) :
    (Node.mk i form ⟨s, e⟩ children).Spanned := by
  obtain ⟨hordered, hinside⟩ := ordered_and_inside h
  have hkind : form.kind ≠ .callExpression ∧ form.kind ≠ .memberExpression ∧
      form.kind ≠ .identifier := by
    cases form <;> simp_all [Form.isPlain, Form.kind]
  refine ⟨hordered, hinside, fun callee hcallee => ?_, fun h => absurd h hkind.2.1, ?_,
    fun h => absurd h hkind.2.2⟩
  · exact absurd (Node.kind_eq_of_callee? hcallee) hkind.1
  · rintro (rfl : form = .parenthesized)
    cases hform

/-- A call or member access begins with its first child. -/
lemma spanned_of_head {n : Node} {rest : Forest}
    (hform : form = .call ∨ ∃ property, form = .member property) (hstart : n.span.start = s)
    (hpart : n.isPart = true) (h : Span.Spread s e ((n :: rest).map Node.span)) :
    (Node.mk i form ⟨s, e⟩ (n :: rest)).Spanned := by
  obtain ⟨hordered, hinside⟩ := ordered_and_inside h
  have hfirst : (n :: rest).find? Node.isPart = some n := List.find?_cons_of_pos hpart
  refine ⟨hordered, hinside, ?_, ?_, ?_, ?_⟩
  · intro callee hcallee
    have hmem := Node.find?_of_callee? hcallee
    rw [show (Node.mk i form ⟨s, e⟩ (n :: rest)).children = n :: rest from rfl, hfirst] at hmem
    rw [← Option.some.inj hmem]
    exact hstart
  · intro hkind object hobject
    rw [show (Node.mk i form ⟨s, e⟩ (n :: rest)).children = n :: rest from rfl, hfirst] at hobject
    rw [← Option.some.inj hobject]
    exact hstart
  · rintro (rfl : form = .parenthesized)
    simp at hform
  · intro hkind
    rcases hform with rfl | ⟨property, rfl⟩ <;> cases hkind

/-- The name of an identifier is not empty. -/
lemma spanned_identifier {x : String} (h : s < e) :
    (Node.mk i (.identifier x) ⟨s, e⟩ []).Spanned :=
  ⟨.nil, by simp [Node.children], by rintro _ ⟨⟩, by rintro ⟨⟩, by rintro ⟨⟩, fun _ => ⟨rfl, h⟩⟩

lemma spanned_comment {span : Span} : (Node.mk i .comment span []).Spanned :=
  ⟨.nil, by simp [Node.children], by rintro _ ⟨⟩, by rintro ⟨⟩, by rintro ⟨⟩, by rintro ⟨⟩⟩

/-- What is in parentheses stands behind the opening one. -/
lemma spanned_parenthesized {lo : Nat} (hlo : s < lo)
    (h : Span.Spread lo e (children.map Node.span)) :
    (Node.mk i .parenthesized ⟨s, e⟩ children).Spanned := by
  obtain ⟨hordered, hinside⟩ := ordered_and_inside h
  refine ⟨hordered, fun c hc => ?_, by rintro _ ⟨⟩, by rintro ⟨⟩, fun _ c hc => ?_, by rintro ⟨⟩⟩
  · exact ⟨(Nat.le_of_lt hlo).trans (hinside c hc).1, (hinside c hc).2⟩
  · exact hlo.trans_le (hinside c hc).1

end Spanned

lemma placed_mk {i : Nat} {form : Form} {span : Span} {children : Forest}
    (hsits : (Node.mk i form span children).Sits text) (h : ∀ n ∈ children, n.Placed text) :
    (Node.mk i form span children).Placed text := by
  intro x hx
  rcases Node.mem_preorder_iff.1 hx with rfl | hx
  · exact hsits
  · obtain ⟨c, hc, hxc⟩ := Node.mem_preorderAll_iff.1 hx
    exact h c hc x hxc

/-- A node around others is laid where it begins and ends. -/
lemma laid_mk {s lo e : Nat} {form : Form} {children : Forest} (hs : TokenAt text s)
    (he : PlaceAt text e) (hlo : s ≤ lo)
    (hspanned : ∀ e, Span.Spread lo e (children.map Node.span) →
      (Node.mk 0 form ⟨s, e⟩ children).Spanned)
    (hchildren : Laid text lo e children) : Laid text s e [Node.mk 0 form ⟨s, e⟩ children] where
  spread := ⟨Nat.le_refl s, hlo.trans hchildren.le, Nat.le_refl e⟩
  placed n hn := by
    rw [List.mem_singleton.1 hn]
    exact placed_mk ⟨hspanned e hchildren.spread, fun _ => hs, fun _ => he⟩ hchildren.placed

/-! ### The cursor between nodes -/

variable (text) in
/-- The nodes `done` have been read since the offset `lo`. -/
def Behind (lo : Nat) (done : Forest) (c : Cursor) : Prop := Laid text lo c.offset done

/-- The cursor stands at a token, which begins at an offset. -/
def Opens (s : Nat) (c : Cursor) : Prop := c.AtToken ∧ c.offset = s

variable (text) in
/-- A node that begins at an offset has been read. -/
structure Begins (s : Nat) (n : Node) (c : Cursor) : Prop where
  start : n.span.start = s
  part : n.isPart = true
  behind : Behind text s [n] c

variable (text) in
/-- The reader yields nodes that stand one behind the other. -/
def Reads (view : α → Forest) (p : Parse α) : Prop :=
  ∀ lo, Ensures text (Behind text lo []) p fun a => Behind text lo (view a)

variable (text) in
/-- The reader yields a node that begins at the next token. -/
def ReadsNode (p : Parse Node) : Prop :=
  ∀ ⦃c⦄, c.Within text → ∀ ⦃n d⦄, p c = some (n, d) →
    ∃ t, triviaAt? c = some t ∧ t.next.Reaches d ∧ Begins text t.next.offset n d

lemma Behind.mono {lo : Nat} {done : Forest} {c d : Cursor} (h : Behind text lo done c)
    (hcd : c.Reaches d) : Behind text lo done d := h.widen_right hcd.offset_le

lemma Begins.mono {s : Nat} {n : Node} {c d : Cursor} (h : Begins text s n c) (hcd : c.Reaches d) :
    Begins text s n d :=
  ⟨h.start, h.part, h.behind.mono hcd⟩

lemma Opens.behind {s : Nat} {c : Cursor} (h : Opens s c) : Behind text s [] c :=
  Laid.nil (Nat.le_of_eq h.2.symm)

end IdentityLint.Syntax

namespace IdentityLint.Parse.Ensures

open Syntax Token

/-! ### Steps -/

variable {α β : Type} {text : List Char} {lo s : Nat} {done : Forest} {view : α → Forest}
  {final : β → Forest} {p : Parse α} {q : Parse β} {k : α → Parse β} {post : β → Cursor → Prop}
  {n : Node}

/-- Behind further nodes, a reader adds its own. -/
lemma reads (hp : Reads text view p) :
    Ensures text (Behind text lo done) p fun a => Behind text lo (done ++ view a) := by
  intro c hc hdone a d h
  obtain ⟨hcd, hview⟩ := hp c.offset hc (Laid.nil (Nat.le_refl _)) h
  exact ⟨hcd, hdone.append hview⟩

/-- A step that reads nodes. -/
lemma read (hp : Reads text view p)
    (hk : ∀ a, Ensures text (Behind text lo (done ++ view a)) (k a) post) :
    Ensures text (Behind text lo done) (p >>= k) post :=
  (reads hp).bind hk

/-- A step that reads no nodes. -/
lemma skip [hp : Moves p] (hk : ∀ a, Ensures text (Behind text lo done) (k a) post) :
    Ensures text (Behind text lo done) (p >>= k) post := by
  refine bind (fun c _ hdone a d h => ?_) hk
  have hcd := hp.reaches h
  exact ⟨hcd, hdone.mono hcd⟩

/-- The last step, if it reads nodes. -/
lemma last (hq : Reads text final q) {view : β → Forest} (h : ∀ b, view b = done ++ final b) :
    Ensures text (Behind text lo done) q fun b => Behind text lo (view b) := by
  intro c hc hdone b d hb
  simp only [h]
  exact reads hq hc hdone hb

/-- The last step, if it puts together what was read. -/
lemma result {b : β} (h : final b = done) :
    Ensures text (Behind text lo done) (Pure.pure b) fun b => Behind text lo (final b) :=
  pure fun c hdone => by rwa [h]

/-- A step to the next token, at which a node begins. -/
lemma here {k : Nat → Parse β}
    (hk : ∀ s, TokenAt text s → Laid text lo s done → Ensures text (Opens s) (k s) post) :
    Ensures text (Behind text lo done) (here >>= k) post := by
  intro c hc hdone b e h
  obtain ⟨s, d, hs, hb⟩ := bind_eq_some_iff.1 h
  obtain ⟨t, ht, rfl, rfl⟩ := here_eq_some hs
  have hreach := reaches_next ht
  have htoken := atToken_next ht
  have hwithin := hc.trans hreach
  obtain ⟨hde, hlast⟩ := hk t.next.offset ⟨t.next, hwithin, htoken, rfl⟩ (hdone.mono hreach) hwithin
    ⟨htoken, rfl⟩ hb
  exact ⟨hreach.trans hde, hlast⟩

/-- A step that reads the node that begins at the cursor. -/
lemma first {p : Parse Node} {k : Node → Parse β} (hp : ReadsNode text p)
    (hk : ∀ n, Ensures text (Begins text s n) (k n) post) :
    Ensures text (Opens s) (p >>= k) post := by
  refine bind (fun c hc hopens n d h => ?_) hk
  obtain ⟨t, ht, hreach, hbegins⟩ := hp hc h
  obtain ⟨htoken, rfl⟩ := hopens
  obtain rfl := Option.some.inj (htoken.symm.trans ht)
  exact ⟨hreach, hbegins⟩

/-- Where a node begins, none of its children has been read. -/
lemma opened (h : Ensures text (Behind text s []) q post) : Ensures text (Opens s) q post :=
  h.weaken fun _ hopens => hopens.behind

/-- Where a node begins, what was read before stays as it is. -/
lemma resumed (hdone : Laid text lo s done) (h : Ensures text (Behind text lo done) q post) :
    Ensures text (Opens s) q post :=
  h.weaken fun _ hopens => hdone.widen_right (Nat.le_of_eq hopens.2.symm)

/-- A node that has been read becomes the first child of another one. -/
lemma begun
    (h : n.span.start = s → n.isPart = true → Ensures text (Behind text s [n]) q post) :
    Ensures text (Begins text s n) q post :=
  fun _ hc hbegins => h hbegins.start hbegins.part hc hbegins.behind

/-- A node that has been read joins those that were read before it. -/
lemma joined (hdone : Laid text lo s done)
    (h : Ensures text (Behind text lo (done ++ [n])) q post) :
    Ensures text (Begins text s n) q post :=
  h.weaken fun _ hbegins => hdone.append hbegins.behind

/-- A node that is extended to the right begins where it began. -/
lemma extended {step : Node → Parse Node} {k : Node → Parse β}
    (hstep : ∀ n, Ensures text (Begins text s n) (step n) (Begins text s))
    (hk : ∀ n, Ensures text (Begins text s n) (k n) post) :
    Ensures text (Begins text s n) (Parse.iterate step n >>= k) post :=
  (iterate hstep n).bind hk

/-- A step behind a node that reads no further nodes. -/
lemma pass [hp : Moves p] (hk : ∀ a, Ensures text (Begins text s n) (k a) post) :
    Ensures text (Begins text s n) (p >>= k) post := by
  refine bind (fun c _ hbegins a d h => ?_) hk
  have hcd := hp.reaches h
  exact ⟨hcd, hbegins.mono hcd⟩

/-- A node that has been read may be yielded behind further tokens. -/
lemma yielded (hstart : n.span.start = s) (hpart : n.isPart = true) (h : done = [n]) :
    Ensures text (Behind text s done) (Pure.pure n) (Begins text s) :=
  pure fun _ hdone => ⟨hstart, hpart, h ▸ hdone⟩

/-- A step over some characters. -/
lemma advance {n : Nat} {k : PUnit → Parse β}
    (hk : Ensures text (Behind text lo done) (k ⟨⟩) post) :
    Ensures text (Behind text lo done) (get >>= fun c => set (c.advance n) >>= k) post := by
  intro c hc hdone b e h
  have hreach := Cursor.reaches_advance n c
  obtain ⟨hde, hlast⟩ := hk (hc.trans hreach) (hdone.mono hreach) h
  exact ⟨hreach.trans hde, hlast⟩

/-! ### Closing a node -/

/-- A node is closed around its children. -/
lemma closed {form : Form} {children : Forest} (hs : TokenAt text s) (hlo : s ≤ lo)
    (hform : form ≠ .comment) (h : done = children)
    (hspanned : ∀ e, Span.Spread lo e (children.map Node.span) →
      (Node.mk 0 form ⟨s, e⟩ children).Spanned) :
    Ensures text (Behind text lo done) (close s form children) (Begins text s) := by
  rintro c hc hdone _ d ⟨⟩
  subst h
  refine ⟨.refl c, rfl, by simpa [Node.isPart, Node.form] using hform, ?_⟩
  exact laid_mk hs ⟨c, hc, rfl⟩ hlo hspanned hdone

lemma closePlain {form : Form} {children : Forest} (hs : TokenAt text s)
    (hform : form.isPlain = true) (h : done = children) :
    Ensures text (Behind text s done) (close s form children) (Begins text s) :=
  closed hs (Nat.le_refl s) (by rintro rfl; cases hform) h fun _ => spanned_of_isPlain hform

lemma closeCall {rest : Forest} (hs : TokenAt text s) (hstart : n.span.start = s)
    (hpart : n.isPart = true) (h : done = n :: rest) :
    Ensures text (Behind text s done) (close s .call (n :: rest)) (Begins text s) :=
  closed hs (Nat.le_refl s) (by simp) h fun _ => spanned_of_head (Or.inl rfl) hstart hpart

lemma closeMember {property : Option String} (hs : TokenAt text s) :
    Ensures text (Begins text s n) (close s (.member property) [n]) (Begins text s) :=
  begun fun hstart hpart =>
    closed hs (Nat.le_refl s) (by simp) rfl fun _ =>
      spanned_of_head (Or.inr ⟨property, rfl⟩) hstart hpart

lemma closeParenthesized {children : Forest} (hs : TokenAt text s) (hlo : s < lo)
    (h : done = children) :
    Ensures text (Behind text lo done) (close s .parenthesized children) (Begins text s) :=
  closed hs (Nat.le_of_lt hlo) (by simp) h fun _ => spanned_parenthesized hlo

/-- A name leads behind the offset at which it begins. -/
lemma named [hp : Advances p] : Ensures text (Opens s) p fun _ c => s < c.offset :=
  fun _ _ hopens _ _ h => ⟨hp.reaches h, hopens.2 ▸ hp.lt h⟩

/-- An identifier is closed behind its name. -/
lemma closeIdentifier {x : String} (hs : TokenAt text s) :
    Ensures text (fun c => s < c.offset) (close s (.identifier x) []) (Begins text s) := by
  rintro c hc hlt _ d ⟨⟩
  refine ⟨.refl c, rfl, rfl, ?_⟩
  exact laid_mk hs ⟨c, hc, rfl⟩ (Nat.le_succ s) (fun _ => spanned_identifier) (.nil hlt)

end IdentityLint.Parse.Ensures

namespace IdentityLint.Syntax

open Parse Token

variable {α β : Type} {text : List Char} {view : α → Forest} {p p' : Parse α} {q : Parse β}

/-! ### Readers of nodes -/

/-- A reader of one node, taken as a reader of a forest. -/
lemma Reads.single {p : Parse Node} (hp : Reads text (fun n => [n]) p) :
    Reads text id (do return [← p]) :=
  fun _ => .read hp fun _ => .result rfl

namespace ReadsNode

variable {p p' : Parse Node}

lemma reads (hp : ReadsNode text p) : Reads text (fun n => [n]) p := by
  intro lo c hc hlo n d h
  obtain ⟨t, ht, hreach, hbegins⟩ := hp hc h
  have hnext := reaches_next ht
  exact ⟨hnext.trans hreach, hbegins.behind.widen_left (hlo.le.trans hnext.offset_le)⟩

lemma single (hp : ReadsNode text p) : Reads text id (do return [← p]) := hp.reads.single

lemma failure : ReadsNode text (failure : Parse Node) := by
  rintro c - n d ⟨⟩

lemma orElse (hp : ReadsNode text p) (hp' : ReadsNode text p') : ReadsNode text (p <|> p') := by
  intro c hc n d h
  rcases or_of_orElse_eq_some h with h | h
  · exact hp hc h
  · exact hp' hc h

lemma ite {b : Bool} (hp : ReadsNode text p) (hp' : ReadsNode text p') :
    ReadsNode text (if b then p else p') := by
  split
  · exact hp
  · exact hp'

/-- Looking ahead does not matter. -/
lemma look {k : β → Parse Node} [hq : Stays q] (hk : ∀ b, ReadsNode text (k b)) :
    ReadsNode text (q >>= k) := by
  intro c hc n d h
  obtain ⟨b, e, hb, hn⟩ := bind_eq_some_iff.1 h
  obtain rfl := hq.eq hb
  exact hk b hc hn

lemma seqLeft (hp : ReadsNode text p) [hq : Moves q] : ReadsNode text (p <* q) := by
  intro c hc n e h
  obtain ⟨m, d, hm, hrest⟩ := bind_eq_some_iff.1 h
  obtain ⟨b, e', hb, hpure⟩ := bind_eq_some_iff.1 hrest
  cases hpure
  obtain ⟨t, ht, hreach, hbegins⟩ := hp hc hm
  have hde := hq.reaches hb
  exact ⟨t, ht, hreach.trans hde, hbegins.mono hde⟩

/-- The readers of nodes go to the next token first. -/
lemma here {k : Nat → Parse Node}
    (hk : ∀ s, TokenAt text s → Ensures text (Opens s) (k s) (Begins text s)) :
    ReadsNode text (here >>= k) := by
  intro c hc n e h
  obtain ⟨s, d, hs, hn⟩ := bind_eq_some_iff.1 h
  obtain ⟨t, ht, rfl, rfl⟩ := here_eq_some hs
  have hwithin := hc.trans (reaches_next ht)
  have htoken := atToken_next ht
  obtain ⟨hreach, hbegins⟩ :=
    hk t.next.offset ⟨t.next, hwithin, htoken, rfl⟩ hwithin ⟨htoken, rfl⟩ hn
  exact ⟨t, ht, hreach, hbegins⟩

lemma asOther {p : Parse Forest} (hp : Reads text id p) : ReadsNode text (asOther p) :=
  here fun _ hs => .opened <| .read hp fun _ => .closePlain hs rfl rfl

/-- What has no nodes inside is a node without children. -/
lemma leaf (hp : Moves q) : ReadsNode text (Token.asOther (q *> pure [])) :=
  asOther fun _ => .skip fun _ => .result rfl

lemma identifierOf {p : Parse String} [Advances p] : ReadsNode text (identifierOf p) :=
  here fun _ hs => Ensures.named.bind fun _ => .closeIdentifier hs

end ReadsNode

/-! ### Readers of forests -/

namespace Reads

lemma orElse (hp : Reads text view p) (hp' : Reads text view p') : Reads text view (p <|> p') :=
  fun lo => (hp lo).orElse (hp' lo)

lemma seqRight [Moves q] (hp : Reads text view p) : Reads text view (q *> p) :=
  fun lo => .skip (k := fun _ => p) fun _ => hp lo

lemma seqLeft [Moves q] (hp : Reads text view p) : Reads text view (p <* q) :=
  fun _ => .read (k := fun a => q >>= fun _ => pure a) hp fun _ => .skip fun _ => .result rfl

lemma optionD {x : α} (hp : Reads text view p) (hx : view x = []) :
    Reads text view (optionD x p) := by
  intro lo c hc hlo a d h
  rcases or_of_optionD_eq_some h with h | ⟨rfl, rfl⟩
  · exact hp lo hc hlo h
  · exact ⟨.refl d, by simpa only [hx] using hlo⟩

lemma congr {view' : α → Forest} (hp : Reads text view p) (h : ∀ a, view a = view' a) :
    Reads text view' p := by
  rwa [← funext h]

/-- What has no nodes inside. -/
lemma nothing [Moves q] : Reads text id (q *> (pure [] : Parse Forest)) :=
  seqRight fun _ => .result rfl

/-- Nodes that may be missing. -/
lemma optional {p : Parse Forest} (hp : Reads text id p) : Reads text id (Parse.optionD [] p) :=
  hp.optionD rfl

lemma laid (hp : Reads text view p) {c d : Cursor} {a : α} (hc : c.Within text)
    (h : p c = some (a, d)) : c.Reaches d ∧ Laid text c.offset d.offset (view a) :=
  hp c.offset hc (Laid.nil (Nat.le_refl _)) h

lemma of_laid (h : ∀ ⦃c⦄, c.Within text → ∀ ⦃a d⦄, p c = some (a, d) →
    c.Reaches d ∧ Laid text c.offset d.offset (view a)) : Reads text view p := by
  intro lo c hc hlo a d ha
  obtain ⟨hcd, hview⟩ := h hc ha
  exact ⟨hcd, hview.widen_left hlo.le⟩

/-- What is read one after the other stands one behind the other. -/
lemma many (hp : Reads text view p) : Reads text (fun as => as.flatMap view) (many p) := by
  refine of_laid fun c hc as d h => ?_
  have hcons : ∀ ⦃c⦄, c.Within text → ∀ ⦃a d⦄, p c = some (a, d) → c.Reaches d ∧ ∀ ⦃hi as⦄,
      Laid text d.offset hi (as.flatMap view) → Laid text c.offset hi ((a :: as).flatMap view) := by
    intro c hc a d ha
    obtain ⟨hcd, hview⟩ := hp.laid hc ha
    exact ⟨hcd, fun hi as hrest => hview.append hrest⟩
  exact Ensures.many (fun lo hi as => Laid text lo hi (as.flatMap view))
    (fun i => .nil (Nat.le_refl i)) hcons c.offset hc rfl h

/-- Forests that are read one after the other stand one behind the other. -/
lemma manyForests {p : Parse Forest} (hp : Reads text id p) :
    Reads text List.flatten (Parse.many p) :=
  hp.many.congr fun _ => List.flatMap_id

lemma sepBy1 [Moves q] (hp : Reads text view p) :
    Reads text (fun as => as.flatMap view) (sepBy1 q p) := by
  intro lo
  refine .read hp fun a => ?_
  refine .read hp.seqRight.many fun as => ?_
  exact .result (by simp)

lemma sepBy1Forests {p : Parse Forest} [Moves q] (hp : Reads text id p) :
    Reads text List.flatten (Parse.sepBy1 q p) :=
  hp.sepBy1.congr fun _ => List.flatMap_id

lemma sepEnd {p : Parse (List α)} [hq : Moves q]
    (hp : Reads text (fun as => as.flatMap view) p) :
    Reads text (fun as => as.flatMap view) (sepEnd q p) := by
  refine of_laid fun c hc as d h => ?_
  have hgo : c.Reaches (sepEnd.go q p c).2 ∧
      Laid text c.offset (sepEnd.go q p c).2.offset ((sepEnd.go q p c).1.flatMap view) := by
    clear h
    fun_induction sepEnd.go q p c with
    | case1 c hnone => exact ⟨.refl c, .nil (Nat.le_refl _)⟩
    | case2 c as d has hnone => exact hp.laid hc has
    | case3 c as d has b e hsep hlt r ih =>
      obtain ⟨hcd, hview⟩ := hp.laid hc has
      have hde := hq.reaches hsep
      obtain ⟨hef, hrest⟩ := ih (hc.trans (hcd.trans hde))
      refine ⟨hcd.trans (hde.trans hef), ?_⟩
      rw [List.flatMap_append]
      exact (hview.widen_right hde.offset_le).append hrest
    | case4 c as d has b e hsep hge => exact hp.laid hc has
  rwa [Option.some.inj h] at hgo

lemma sepEndForests {p : Parse Forest} [Moves q] (hp : Reads text id p) :
    Reads text id (Parse.sepEnd q p) := by
  have hsingles : ∀ ns : Forest, ns.flatMap (fun n => [n]) = ns := List.flatMap_singleton'
  exact (sepEnd (hp.congr fun ns => (hsingles ns).symm)).congr hsingles

end Reads

end IdentityLint.Syntax
