import IdentityLint.Proofs.Layout
import IdentityLint.Syntax.Grammar.Pattern

/-!
# The layout of types and patterns

If the readers of a grammar lay their nodes in order (`Grammar.Tidy`), then so do the readers that
are made from them.  A lemma about a reader has the name of the reader, and its proof follows the
text of the reader step by step.
-/

namespace IdentityLint.Syntax

open Parse Token

/-- The readers of a grammar lay their nodes in order. -/
structure Grammar.Tidy (text : List Char) (g : Grammar) : Prop where
  expression : ReadsNode text g.expression
  assignment : ReadsNode text g.assignment
  branch : ReadsNode text g.branch
  primary : ReadsNode text g.primary
  operand : ReadsNode text g.operand
  statement : Reads text id g.statement
  type : Reads text id g.type
  binding : Reads text id g.binding
  target : Reads text id g.target
  element : ReadsNode text g.element

namespace Grammar

instance (words : List String) : Moves (modifier words) := by
  unfold modifier
  refine Moves.bind fun w => Moves.bind fun _ => Moves.bind fun cs => ?_
  split <;> infer_instance

instance : Moves sign := by
  unfold sign
  infer_instance

namespace Tidy

variable {text : List Char} {g : Grammar} (hg : g.Tidy text)

include hg

/-! ### Common parts -/

lemma block : Reads text id g.block := by
  intro lo
  refine .skip fun _ => ?_
  refine .read hg.statement.manyForests fun body => ?_
  refine .skip fun _ => ?_
  exact .result rfl

lemma key : Reads text Prod.snd g.key := by
  refine .orElse ?_ <| .orElse ?_ <| .orElse ?_ <| .orElse ?_ ?_
  · exact fun _ => .skip fun _ => .result rfl
  · exact fun _ => .skip fun _ => .result rfl
  · exact fun _ => .skip fun _ => .result rfl
  · exact fun _ => .skip fun _ => .result rfl
  · intro lo
    refine .skip fun _ => ?_
    refine .read hg.assignment.reads fun e => ?_
    refine .skip fun _ => ?_
    exact .result rfl

lemma initializer : Reads text id g.initializer :=
  .optional fun _ => .skip fun _ => .last hg.assignment.single fun _ => rfl

lemma arguments : ReadsNode text g.arguments := by
  refine .here fun s hs => .opened ?_
  refine .skip fun _ => ?_
  refine .read (.sepEndForests ?_) fun args => ?_
  · exact (ReadsNode.orElse
      (.asOther fun _ => .skip fun _ => .last hg.assignment.single fun _ => rfl)
      hg.assignment).single
  · refine .skip fun _ => ?_
    exact .closePlain hs rfl rfl

omit hg in
lemma template {p : Parse Forest} (hp : Reads text id p) : Reads text id (template p) := by
  intro lo
  refine .skip fun _ => ?_
  refine .read (.manyForests ?_) fun pieces => ?_
  · intro lo
    refine .skip fun c => ?_
    split
    · refine .advance ?_
      refine .read hp fun e => ?_
      refine .skip fun _ => ?_
      exact .result rfl
    · exact .failure
  · refine .skip fun c => ?_
    split
    · exact .advance (.result rfl)
    · exact Ensures.failure.bind fun _ => .result rfl

/-! ### Signatures -/

lemma typeArguments : Reads text id g.typeArguments := by
  intro lo
  refine .skip fun _ => ?_
  refine .read hg.type.sepEndForests fun ts => ?_
  refine .skip fun _ => ?_
  exact .result rfl

lemma typeParameters : Reads text id g.typeParameters := by
  intro lo
  refine .skip fun _ => ?_
  refine .read (.sepEndForests fun lo => ?_) fun ps => ?_
  · refine .skip fun ws => ?_
    refine .skip fun _ => ?_
    refine .read hg.type.seqRight.optional fun bound => ?_
    refine .read hg.type.seqRight.optional fun default => ?_
    exact .result rfl
  · refine .skip fun _ => ?_
    exact .result rfl

omit hg in
/-- A member access by a name behind a dot extends the node that it begins with. -/
lemma memberStep {s : Nat} (hs : TokenAt text s) (n : Node) :
    Ensures text (Begins text s n) (do
      punct "."
      let p ← word
      close s (.member (some p)) [n]) (Begins text s) :=
  .pass fun _ => .pass fun _ => .closeMember hs

lemma decorator : Reads text id g.decorator := by
  intro lo
  refine .skip fun _ => ?_
  refine .here fun s hs hdone => .orElse (.resumed hdone ?_) ?_
  · refine .skip fun _ => ?_
    refine .read hg.expression.reads fun e => ?_
    refine .skip fun _ => ?_
    exact .result rfl
  · refine .first .identifierOf fun first => ?_
    refine .extended (memberStep hs) fun path => ?_
    refine .optionD (.begun fun hstart hpart => ?_) fun c hpath => hdone.append hpath.behind
    refine .read hg.typeArguments.optional fun ts => ?_
    refine .read hg.arguments.reads fun args => ?_
    refine (Ensures.closeCall hs hstart hpart (by simp)).bind fun call => ?_
    exact .joined hdone (.result rfl)

lemma typed : Reads text id g.typed := hg.type.seqRight.optional

lemma parameter : Reads text id g.parameter := by
  intro lo
  refine .read hg.decorator.manyForests fun decorators => ?_
  refine .skip fun _ => ?_
  refine .skip fun _ => ?_
  refine .read (.orElse .nothing hg.binding) fun bound => ?_
  refine .skip fun _ => ?_
  refine .read hg.typed fun type => ?_
  refine .read hg.initializer fun default => ?_
  exact .result rfl

lemma parameters : Reads text id g.parameters := by
  intro lo
  refine .skip fun _ => ?_
  refine .read hg.parameter.sepEndForests fun ps => ?_
  refine .skip fun _ => ?_
  exact .result rfl

lemma signature : Reads text id g.signature := by
  intro lo
  refine .read hg.typeParameters.optional fun ts => ?_
  refine .read hg.parameters fun ps => ?_
  refine .read hg.typed fun r => ?_
  exact .result rfl

/-! ### Members of object types -/

lemma indexMember : Reads text id g.indexMember := by
  intro lo
  refine .skip fun _ => ?_
  refine .skip fun _ => ?_
  refine .skip fun _ => ?_
  refine .here fun s hs hdone => ?_
  -- only one of the ways to go on makes the name a node
  have hword : Ensures text (Opens s) word fun _ c => s < c.offset ∧ Behind text lo [] c :=
    fun c _ hopens x d h => ⟨Moves.reaches h, hopens.2 ▸ Advances.lt h,
      hdone.widen_right (hopens.2 ▸ (Moves.reaches h).offset_le)⟩
  refine hword.bind fun x => ?_
  have hinside : Ensures text (fun c => s < c.offset ∧ Behind text lo [] c)
      ((do
        let n ← close s (.identifier x) []
        punct ":"
        let t ← g.type
        return n :: t) <|>
      (do
        keyword "in"
        let t ← g.type
        let renamed ← optionD [] (keyword "as" *> g.type)
        return t ++ renamed)) fun ns => Behind text lo ns := by
    refine .orElse (.weaken ?_ fun c h => h.1) (.weaken ?_ fun c h => h.2)
    · refine (Ensures.closeIdentifier hs).bind fun n => .joined hdone ?_
      refine .skip fun _ => ?_
      refine .read hg.type fun t => ?_
      exact .result rfl
    · refine .skip fun _ => ?_
      refine .read hg.type fun t => ?_
      refine .read hg.type.seqRight.optional fun renamed => ?_
      exact .result rfl
  refine hinside.bind fun inside => ?_
  refine .skip fun _ => ?_
  refine .skip fun _ => ?_
  refine .skip fun _ => ?_
  refine .read hg.typed fun t => ?_
  exact .result rfl

lemma typeMember : Reads text id g.typeMember := by
  refine .orElse hg.indexMember (.orElse ?_ ?_)
  · exact fun _ => .skip fun _ => .last hg.signature fun _ => rfl
  · intro lo
    refine .skip fun _ => ?_
    refine .read hg.key fun k => ?_
    refine .skip fun _ => ?_
    refine .read (hg.signature.orElse hg.typed) fun sig => ?_
    exact .result rfl

lemma objectType : Reads text id g.objectType := by
  intro lo
  refine .skip fun _ => ?_
  refine .read hg.typeMember.seqLeft.manyForests fun ms => ?_
  refine .skip fun _ => ?_
  exact .result rfl

/-! ### Types -/

lemma tupleElement : Reads text id g.tupleElement := by
  intro lo
  refine .skip fun _ => .orElse ?_ ?_
  · refine .read (ReadsNode.identifierOf).reads fun n => ?_
    refine .skip fun _ => ?_
    refine .skip fun _ => ?_
    refine .read hg.type fun t => ?_
    exact .result rfl
  · exact .last hg.type.seqLeft fun _ => rfl

lemma importCall : ReadsNode text g.importCall := by
  refine .here fun s hs => ?_
  refine .first (.leaf inferInstance) fun callee => .begun fun hstart hpart => ?_
  refine .read hg.arguments.reads fun args => ?_
  exact .closeCall hs hstart hpart rfl

omit hg in
/-- The members taken of a node inside a type extend it. -/
lemma typeMembersStep {s : Nat} (hs : TokenAt text s) (n : Node) :
    Ensures text (Begins text s n) (do
      punct "."
      (do
        let p ← word
        close s (.member (some p)) [n]) <|>
      (do
        privateName
        close s (.member none) [n])) (Begins text s) :=
  .pass fun _ => .orElse (.pass fun _ => .closeMember hs) (.pass fun _ => .closeMember hs)

lemma typeQuery : Reads text id g.typeQuery := by
  intro lo
  refine .skip fun _ => ?_
  refine .here fun s hs hdone => ?_
  refine .first (hg.importCall.orElse (.orElse (.leaf inferInstance) .identifierOf)) fun first => ?_
  refine .extended (typeMembersStep hs) fun n => .joined hdone ?_
  refine .read hg.typeArguments.optional fun ts => ?_
  exact .result rfl

lemma importType : Reads text id g.importType := by
  intro lo
  refine .here fun s hs hdone => ?_
  refine .first hg.importCall fun call => ?_
  refine .extended (typeMembersStep hs) fun n => .joined hdone ?_
  refine .read hg.typeArguments.optional fun ts => ?_
  exact .result rfl

lemma functionType : Reads text id g.functionType := by
  intro lo
  refine .skip fun _ => ?_
  refine .skip fun _ => ?_
  refine .read hg.typeParameters.optional fun ts => ?_
  refine .read hg.parameters fun ps => ?_
  refine .skip fun _ => ?_
  refine .read hg.type fun r => ?_
  exact .result rfl

lemma predicate : Reads text id g.predicate :=
  fun _ => .skip fun _ => .skip fun _ => .skip fun _ => .last hg.type fun _ => rfl

omit hg in
lemma reads_subject : Reads text id subject := .orElse .nothing ReadsNode.identifierOf.single

end Tidy

/-! ### Paths -/

/-- Names behind the dots of a path, that end one behind the other between two offsets. -/
def Steps (text : List Char) : Nat → Nat → List (String × Nat) → Prop
  | lo, hi, [] => lo ≤ hi
  | lo, hi, q :: qs => lo ≤ q.2 ∧ PlaceAt text q.2 ∧ Steps text q.2 hi qs

section Paths

variable {text : List Char} {s lo hi : Nat}

lemma Steps.le {qs : List (String × Nat)} (h : Steps text lo hi qs) : lo ≤ hi := by
  induction qs generalizing lo with
  | nil => exact h
  | cons q qs ih => exact h.1.trans (ih h.2.2)

lemma Steps.dropLast {qs : List (String × Nat)} (h : Steps text lo hi qs) :
    Steps text lo hi qs.dropLast := by
  induction qs generalizing lo with
  | nil => exact h
  | cons q qs ih =>
    cases qs with
    | nil => exact h.le
    | cons r qs => exact ⟨h.1, h.2.1, ih h.2.2⟩

/-- The names behind dots end one behind the other. -/
lemma ensures_pathNames :
    Ensures text (fun c => c.offset = lo) pathNames fun qs c => Steps text lo c.offset qs := by
  have hstep : ∀ ⦃c⦄, c.Within text → ∀ ⦃q d⦄, (do
      punct "."
      let p ← word
      return (p, ← behind)) c = some (q, d) → c.Reaches d ∧ ∀ ⦃hi qs⦄,
        Steps text d.offset hi qs → Steps text c.offset hi (q :: qs) := by
    intro c hc q d h
    have hcd := Moves.reaches h
    obtain ⟨_, e, -, hword⟩ := bind_eq_some_iff.1 h
    obtain ⟨p, e', -, hbehind⟩ := bind_eq_some_iff.1 hword
    cases hbehind
    exact ⟨hcd, fun hi qs hrest => ⟨hcd.offset_le, ⟨d, hc.trans hcd, rfl⟩, hrest⟩⟩
  exact Ensures.many (Steps text) Nat.le_refl hstep lo

/-- The path of a namespace begins with its first name. -/
lemma laid_nestedPath (hs : TokenAt text s) {qs : List (String × Nat)} {n : Node}
    (hstart : n.span.start = s) (hpart : n.isPart = true) (hn : Laid text s lo [n])
    (hqs : Steps text lo hi qs) : Laid text s hi (nestedPath s n qs) := by
  have hinner := hqs.dropLast
  rw [nestedPath]
  generalize qs.dropLast = rs at hinner
  clear hqs
  induction rs generalizing lo n with
  | nil => exact hn.widen_right hinner
  | cons q rs ih =>
    obtain ⟨hlo, hplace, hrest⟩ := hinner
    refine ih rfl rfl ?_ hrest
    refine laid_mk hs hplace (Nat.le_refl s) (fun _ => ?_) (hn.widen_right hlo)
    exact spanned_of_head (Or.inr ⟨_, rfl⟩) hstart hpart

/-- A step over the names of a path that a node begins; `view` are the nodes made of them. -/
lemma ensures_path {β : Type} {done : Forest} {n : Node} (view : List (String × Nat) → Forest)
    {k : List (String × Nat) → Parse β} {post : β → Cursor → Prop} (hdone : Laid text lo s done)
    (hview : n.span.start = s → n.isPart = true → ∀ {mid hi qs}, Laid text s mid [n] →
      Steps text mid hi qs → Laid text s hi (view qs))
    (hk : ∀ qs, Ensures text (Behind text lo (done ++ view qs)) (k qs) post) :
    Ensures text (Begins text s n) (pathNames >>= k) post := by
  refine .bind (fun c hc hbegins qs d h => ?_) hk
  obtain ⟨hcd, hsteps⟩ := ensures_pathNames hc rfl h
  exact ⟨hcd, hdone.append (hview hbegins.start hbegins.part hbegins.behind hsteps)⟩

lemma reads_typePath : Reads text id typePath := by
  intro lo
  refine .here fun s hs hdone => ?_
  refine .first .identifierOf fun first => ?_
  refine ensures_path (fun qs => if qs.isEmpty then [] else nestedPath s first qs.dropLast) hdone
    (fun hstart hpart mid hi qs hn hqs => ?_) fun qs => .result rfl
  split
  · exact .nil (hn.le.trans hqs.le)
  · exact laid_nestedPath hs hstart hpart hn hqs.dropLast

end Paths

/-! ### Types, continued -/

namespace Tidy

variable {text : List Char} {g : Grammar} (hg : g.Tidy text)

include hg

/-- A type that begins with a word. -/
lemma wordType (w : Option String) : Reads text id (match w with
    | some "new" => g.functionType
    | some "typeof" => g.typeQuery
    | some "import" => g.importType
    | some "abstract" => g.functionType <|> typePath
    | some "asserts" =>
      (do
        keyword "asserts"
        require !(← newlineAhead)
        let x ← subject
        require (x.all fun n => n.form != .identifier "is")
        let p ← optionD [] g.predicate
        return x ++ p) <|> typePath
    | some "infer" =>
      (do
        keyword "infer"
        let _ ← plainName
        optionD [] (keyword "extends" *> g.type)) <|> typePath
    | some _ =>
      (do
        let x ← subject
        let p ← g.predicate
        return x ++ p) <|>
      (do
        let path ← typePath
        let ts ← optionD [] g.typeArguments
        return path ++ ts)
    | none => failure) := by
  split
  · exact hg.functionType
  · exact hg.typeQuery
  · exact hg.importType
  · exact hg.functionType.orElse reads_typePath
  · refine .orElse (fun lo => ?_) reads_typePath
    refine .skip fun _ => ?_
    refine .skip fun _ => ?_
    refine .skip fun _ => ?_
    refine .read reads_subject fun x => ?_
    refine .skip fun _ => ?_
    refine .read hg.predicate.optional fun p => ?_
    exact .result rfl
  · refine .orElse (fun lo => ?_) reads_typePath
    refine .skip fun _ => ?_
    refine .skip fun _ => ?_
    exact .last hg.type.seqRight.optional fun _ => rfl
  · refine .orElse (fun lo => ?_) fun lo => ?_
    · refine .read reads_subject fun x => ?_
      refine .read hg.predicate fun p => ?_
      exact .result rfl
    · refine .read reads_typePath fun path => ?_
      refine .read hg.typeArguments.optional fun ts => ?_
      exact .result rfl
  · exact fun _ => .failure

lemma primaryType : Reads text id g.primaryType := by
  refine .orElse ?_ <| .orElse ?_ <| .orElse ?_ <| .orElse hg.objectType <| .orElse ?_ <|
    .orElse ?_ <| .orElse ?_ <| .orElse (template hg.type) ?_
  · intro lo
    refine .skip fun _ => ?_
    refine .skip fun _ => ?_
    refine .skip fun _ => ?_
    refine .skip fun _ => ?_
    exact .last hg.functionType fun _ => rfl
  · intro lo
    refine .skip fun _ => ?_
    refine .read hg.type fun t => ?_
    refine .skip fun _ => ?_
    exact .result rfl
  · intro lo
    refine .skip fun _ => ?_
    refine .skip fun _ => ?_
    exact .last hg.functionType fun _ => rfl
  · intro lo
    refine .skip fun _ => ?_
    refine .read hg.tupleElement.sepEndForests fun es => ?_
    refine .skip fun _ => ?_
    exact .result rfl
  · exact fun _ => .skip fun _ => .result rfl
  · exact fun _ => .skip fun _ => .skip fun _ => .result rfl
  · exact fun lo => .skip fun w => hg.wordType w lo

lemma postfixType : Reads text id g.postfixType := by
  intro lo
  refine .read hg.primaryType fun t => ?_
  refine Ensures.iterate (fun t => ?_) t
  refine .skip fun _ => ?_
  refine .skip fun _ => ?_
  refine .skip fun _ => ?_
  refine .read hg.type.optional fun i => ?_
  refine .skip fun _ => ?_
  exact .result rfl

lemma operatorType : Reads text id g.operatorType := by
  intro lo
  refine @Ensures.skip _ _ _ _ _ _ _ _ ?_ fun _ => .last hg.postfixType fun _ => rfl
  -- the operators are not nodes
  refine @Moves.many _ _ (Moves.bind fun w => Moves.bind fun _ => Moves.bind fun cs => ?_)
  split <;> infer_instance

lemma unionType : Reads text id g.unionType := by
  intro lo
  refine .skip fun _ => ?_
  refine .read hg.operatorType.sepBy1Forests fun ts => ?_
  exact .result rfl

lemma anyType : Reads text id g.anyType := by
  intro lo
  refine .read hg.unionType fun t => ?_
  refine .read (.optional fun lo => ?_) fun rest => ?_
  · refine .skip fun _ => ?_
    refine .skip fun _ => ?_
    refine .skip fun _ => ?_
    refine .read hg.unionType fun u => ?_
    refine .skip fun _ => ?_
    refine .read hg.type fun a => ?_
    refine .skip fun _ => ?_
    refine .read hg.type fun b => ?_
    exact .result rfl
  · exact .result rfl

/-! ### Patterns -/

lemma objectPattern {leaf : Parse Forest} (hleaf : Reads text id leaf) :
    Reads text id (g.objectPattern leaf) := by
  intro lo
  refine .skip fun _ => ?_
  refine .read (.sepEndForests ?_) fun ps => ?_
  · refine .orElse hleaf.seqRight (.orElse (fun lo => ?_) fun lo => ?_)
    · refine .read hg.key fun k => ?_
      refine .skip fun _ => ?_
      refine .read hleaf fun p => ?_
      refine .read hg.initializer fun d => ?_
      exact .result rfl
    · exact .skip fun _ => .last hg.initializer fun _ => rfl
  · refine .skip fun _ => ?_
    exact .result rfl

lemma arrayPattern {leaf : Parse Forest} (hleaf : Reads text id leaf) :
    Reads text id (g.arrayPattern leaf) := by
  intro lo
  refine .skip fun _ => ?_
  refine .read (.sepEndForests (.orElse (fun lo => ?_) fun lo => ?_)) fun ps => ?_
  · refine .skip fun _ => ?_
    refine .read hleaf fun p => ?_
    refine .read hg.initializer fun d => ?_
    exact .result rfl
  · exact .skip fun _ => .result rfl
  · refine .skip fun _ => ?_
    exact .result rfl

omit hg in
lemma reads_variableName : Reads text id variableName := by
  intro lo
  refine .read ReadsNode.identifierOf.reads fun n => .pure fun c hn => ?_
  split
  · exact .nil hn.le
  · exact hn

lemma bindingPattern : Reads text id g.bindingPattern :=
  (hg.objectPattern hg.binding).orElse ((hg.arrayPattern hg.binding).orElse reads_variableName)

lemma targetPattern : Reads text id g.targetPattern :=
  (hg.objectPattern hg.target).orElse ((hg.arrayPattern hg.target).orElse hg.operand.single)

end Tidy

end Grammar

end IdentityLint.Syntax
