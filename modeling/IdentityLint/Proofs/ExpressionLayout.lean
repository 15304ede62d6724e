import IdentityLint.Proofs.TypeLayout
import IdentityLint.Syntax.Grammar.Expression

/-!
# The layout of expressions

The readers of functions, classes, elements and expressions lay their nodes in order if the readers
of the grammar that they are made from do.

Three readers need an argument of their own.  The comments in front of what is in parentheses are
nodes, and they stand between the parenthesis and the first token.  An expression with neither
operators nor commas is the node that it consists of, so that node has to begin where the expression
began.
-/

namespace IdentityLint.Syntax.Grammar

open Parse Token

variable {text : List Char} {g : Grammar}

namespace Tidy

variable (hg : g.Tidy text)

include hg

/-! ### Functions and object literals -/

omit hg in
instance (follower : String) : Moves (asyncWord follower) := by
  unfold asyncWord
  infer_instance

omit hg in
instance (words : List String) : Moves (methodMarks words) := by
  unfold methodMarks
  infer_instance

lemma functionHead : Reads text id g.functionHead := by
  intro lo
  refine .skip fun _ => ?_
  refine .skip fun _ => ?_
  refine .skip fun _ => ?_
  refine .read ReadsNode.identifierOf.single.optional fun name => ?_
  refine .read hg.signature fun sig => ?_
  exact .result rfl

lemma functionLiteral : ReadsNode text g.functionLiteral := by
  refine .here fun s hs => .opened ?_
  refine .read hg.functionHead fun head => ?_
  refine .read hg.block fun body => ?_
  exact .closePlain hs rfl rfl

lemma objectMethod : ReadsNode text g.objectMethod := by
  refine .here fun s hs => .opened ?_
  refine .skip fun _ => ?_
  refine .read hg.key fun k => ?_
  refine .skip fun _ => ?_
  refine .read hg.signature fun sig => ?_
  refine .read hg.block fun body => ?_
  exact .closePlain hs rfl rfl

lemma pair : ReadsNode text g.pair := by
  refine .here fun s hs => .opened ?_
  refine .read hg.key fun k => ?_
  refine .skip fun _ => ?_
  refine .read hg.assignment.reads fun v => ?_
  exact .closePlain hs rfl rfl

lemma property : Reads text id g.property := by
  refine .orElse ?_ <| .orElse hg.pair.single <| .orElse hg.objectMethod.single ?_
  · exact fun _ => .skip fun _ => .last hg.assignment.single fun _ => rfl
  · exact fun _ => .skip fun _ => .last hg.initializer fun _ => rfl

lemma objectLiteral : ReadsNode text g.objectLiteral := by
  refine .here fun s hs => .opened ?_
  refine .skip fun _ => ?_
  refine .read (hg.property.orElse .nothing).sepEndForests fun ps => ?_
  refine .skip fun _ => ?_
  exact .closePlain hs rfl rfl

/-! ### Classes -/

lemma classMember : Reads text id g.classMember := by
  intro lo
  refine .read hg.decorator.manyForests fun decorators => ?_
  refine .here fun s hs hdone => ?_
  -- a method is a node from `s` on, and the other members are the nodes inside them
  refine .bind (?_ : Ensures text _ _ fun member => Behind text s member) fun member => ?_
  · refine .opened (.orElse ?_ (.orElse ?_ ?_))
    · exact .skip fun _ => .last hg.block fun _ => rfl
    · refine .skip fun _ => ?_
      refine .read hg.key fun k => ?_
      refine .skip fun _ => .orElse ?_ ?_
      · refine .read hg.signature fun sig => .orElse ?_ (.result rfl)
        refine .read hg.block fun body => ?_
        refine (Ensures.closePlain hs rfl rfl).bind fun method => ?_
        exact .begun fun _ _ => .result rfl
      · refine .read hg.typed fun t => ?_
        refine .read hg.initializer fun v => ?_
        exact .result rfl
    · exact .skip fun _ => .last hg.indexMember fun _ => rfl
  · refine .weaken (.skip fun _ => .result rfl) fun c hmember => hdone.append hmember

lemma classBody : Reads text id g.classBody := by
  intro lo
  refine .skip fun _ => ?_
  refine .read (hg.classMember.orElse .nothing).manyForests fun ms => ?_
  refine .skip fun _ => ?_
  exact .result rfl

lemma heritage : Reads text id g.heritage := by
  refine .orElse (fun lo => ?_) fun lo => ?_
  · refine .skip fun _ => ?_
    refine .read (.sepBy1Forests fun lo => ?_) fun ps => .result rfl
    refine .read hg.operand.reads fun e => ?_
    refine .read hg.typeArguments.optional fun ts => ?_
    exact .result rfl
  · refine .skip fun _ => ?_
    refine .read hg.type.sepBy1Forests fun ts => ?_
    exact .result rfl

lemma classTail : Reads text id g.classTail := by
  intro lo
  refine .skip fun _ => ?_
  refine .skip fun _ => ?_
  refine .read hg.typeParameters.optional fun ts => ?_
  refine .read hg.heritage.manyForests fun hs => ?_
  refine .read hg.classBody fun body => ?_
  exact .result rfl

/-! ### Elements -/

omit hg in
instance : Advances tagWord where
  reaches := by
    intro c w d h
    exact Moves.reaches (p := ahead >>= fun text => require (startsName text) >>= fun _ =>
      take (nameLength .plain text + tagWord.tailLength (text.drop (nameLength .plain text))) >>=
        fun cs => pure (String.ofList cs)) h
  lt := by
    intro c w d h
    obtain ⟨cs, e, hahead, hword⟩ := bind_eq_some_iff.1 h
    obtain ⟨t, ht, rfl, rfl⟩ := ahead_eq_some_iff.1 hahead
    obtain ⟨_, e, hrequire, hread⟩ := bind_eq_some_iff.1 hword
    obtain ⟨hstarts, rfl⟩ := require_eq_some_iff.1 hrequire
    obtain ⟨cs, d', htake, hpure⟩ := bind_eq_some_iff.1 hread
    cases hpure
    exact offset_lt_of_take ht (Nat.add_pos_left (nameLength_pos hstarts) _)
      (ne_nil_of_startsName hstarts) htake

omit hg in
instance : Moves attributeString := by
  unfold attributeString
  refine Moves.bind fun cs => ?_
  split <;> infer_instance

omit hg in
lemma ensures_namespaced {lo : Nat} (n : Node) :
    Ensures text (Behind text lo [n]) (namespaced n) fun ns => Behind text lo ns := by
  refine .skip fun _ => ?_
  refine .read ReadsNode.identifierOf.reads fun m => ?_
  exact .result rfl

omit hg in
lemma reads_tagName : Reads text id tagName := by
  intro lo
  refine .here fun s hs hdone => ?_
  refine .first .identifierOf fun first => ?_
  refine .orElse (.joined hdone (ensures_namespaced first)) ?_
  refine .extended (memberStep hs) fun n => .joined hdone ?_
  exact .result rfl

lemma embedded : Reads text id g.embedded := by
  intro lo
  refine .skip fun _ => ?_
  refine .skip fun _ => ?_
  refine .read hg.expression.single.optional fun e => ?_
  refine .skip fun _ => ?_
  exact .result rfl

lemma tagAttribute : Reads text id g.tagAttribute := by
  refine .orElse hg.embedded fun lo => ?_
  refine .read ReadsNode.identifierOf.reads fun first => ?_
  -- a name outside namespaces is no node
  refine .bind (.optionD (ensures_namespaced first) fun c hfirst => .nil hfirst.le) fun name => ?_
  refine .read (.optional fun lo => ?_) fun value => .result rfl
  exact .skip fun _ => .last (.orElse .nothing (hg.embedded.orElse hg.element.single)) fun _ => rfl

lemma content : Reads text id g.content := by
  intro lo
  refine .skip fun c => ?_
  split
  · exact .skip fun _ => .last hg.element.single fun _ => rfl
  · exact hg.embedded lo
  · exact .advance (.result rfl)

lemma elementTail : Reads text id g.elementTail := by
  intro lo
  refine .read hg.content.manyForests fun inside => ?_
  refine .skip fun _ => ?_
  refine .skip fun _ => ?_
  refine .read reads_tagName.optional fun name => ?_
  refine .skip fun _ => ?_
  exact .result rfl

lemma elementNode : ReadsNode text g.elementNode := by
  refine .asOther fun lo => .skip fun _ => .orElse ?_ ?_
  · exact .last hg.elementTail.seqRight fun _ => rfl
  · refine .read reads_tagName fun name => ?_
    refine .read hg.typeArguments.optional fun ts => ?_
    refine .read hg.tagAttribute.manyForests fun attributes => ?_
    refine .read (.orElse .nothing hg.elementTail.seqRight) fun inside => ?_
    exact .result rfl

/-! ### Operands -/

omit hg in
/-- Behind the opening parenthesis, the comments in front of a node stand before it. -/
lemma ensures_commented {lo : Nat} {p : Parse Node} {k : Forest → Node → Parse Node}
    {post : Node → Cursor → Prop} (hp : ReadsNode text p)
    (hk : ∀ comments e, Ensures text (Behind text lo (comments ++ [e])) (k comments e) post) :
    Ensures text (Behind text lo []) (do
      let t ← peek trivia
      let e ← p
      k (t.comments.map fun c => Node.mk 0 .comment c []) e) post := by
  intro c hc hlo n e h
  obtain ⟨t, c', htrivia, hnode⟩ := bind_eq_some_iff.1 h
  obtain rfl := Stays.eq htrivia
  obtain ⟨m, d, hm, hlast⟩ := bind_eq_some_iff.1 hnode
  obtain ⟨t', ht', hreach, hbegins⟩ := hp hc hm
  obtain rfl : t' = t := by
    rw [peek, trivia, ht'] at htrivia
    exact (Prod.mk.inj (Option.some.inj htrivia)).1
  have hcomments : Laid text c'.offset t'.next.offset
      (t'.comments.map fun c => Node.mk 0 .comment c []) := by
    refine ⟨?_, fun x hx => ?_⟩
    · rw [List.map_map]
      exact (List.map_id' t'.comments).symm ▸ spread_comments ht'
    · obtain ⟨span, -, rfl⟩ := List.mem_map.1 hx
      exact placed_mk ⟨spanned_comment, by rintro ⟨⟩, by rintro ⟨⟩⟩ (by simp)
  have hcd := (reaches_next ht').trans hreach
  obtain ⟨hde, hpost⟩ := hk _ m (hc.trans hcd)
    ((hcomments.widen_left hlo.le).append hbegins.behind) hlast
  exact ⟨hcd.trans hde, hpost⟩

lemma parenthesized : ReadsNode text g.parenthesized := by
  refine .here fun s hs => ?_
  have hopen : Ensures text (Opens s) (punct "(") fun _ => Behind text (s + 1) [] :=
    fun c _ hopens _ d h =>
      ⟨Moves.reaches h, .nil (hopens.2 ▸ offset_lt_of_punct (by decide) h)⟩
  refine hopen.bind fun _ => ensures_commented (k := fun comments e => do
    let t ← g.typed
    punct ")"
    close s .parenthesized (comments ++ e :: t)) hg.expression fun comments e => ?_
  refine .read hg.typed fun t => ?_
  refine .skip fun _ => ?_
  exact .closeParenthesized hs (Nat.lt_succ_self s) (by simp)

lemma arrayLiteral : ReadsNode text g.arrayLiteral := by
  refine .asOther fun lo => ?_
  refine .skip fun _ => ?_
  refine .read (.sepEndForests (.orElse (fun lo => ?_) .nothing)) fun es => ?_
  · exact .skip fun _ => .last hg.assignment.single fun _ => rfl
  · exact .skip fun _ => .result rfl

/-- An access by an index extends the node that it begins with. -/
lemma indexStep {s : Nat} (hs : TokenAt text s) (n : Node) :
    Ensures text (Begins text s n) (do
      punct "["
      let i ← g.expression
      punct "]"
      close s .other [n, i]) (Begins text s) := by
  refine .begun fun _ _ => ?_
  refine .skip fun _ => ?_
  refine .read hg.expression.reads fun i => ?_
  refine .skip fun _ => ?_
  exact .closePlain hs rfl rfl

lemma newExpression : ReadsNode text g.newExpression := by
  refine .here fun s hs => .opened ?_
  refine .skip fun _ => .orElse ?_ ?_
  · refine .skip fun _ => ?_
    refine .skip fun _ => ?_
    exact .closePlain hs rfl rfl
  · refine .here fun cs hcs hdone => ?_
    refine .first hg.primary fun first => ?_
    refine .extended (fun n => ?_) fun constructed => .joined hdone ?_
    · refine .orElse (memberStep hcs n) (.orElse ?_ (hg.indexStep hcs n))
      exact .pass fun _ => .pass fun _ => .closeMember hcs
    · refine .read hg.typeArguments.seqLeft.optional fun ts => ?_
      refine .read hg.arguments.single.optional fun args => ?_
      exact .closePlain hs rfl rfl

lemma importExpression : ReadsNode text g.importExpression :=
  hg.importCall.orElse
    (.asOther fun _ => .skip fun _ => .skip fun _ => .skip fun _ => .result rfl)

lemma decoratedClass : Reads text id g.decoratedClass := by
  intro lo
  refine .read hg.decorator.manyForests fun ds => ?_
  refine .skip fun _ => ?_
  refine .read hg.classTail fun c => ?_
  exact .result rfl

lemma wordOperand : ReadsNode text g.wordOperand := by
  refine .look fun w => ?_
  split
  · exact hg.functionLiteral
  · exact hg.functionLiteral.orElse .identifierOf
  · exact .asOther hg.classTail
  · exact hg.newExpression
  · exact hg.importExpression
  · split
    · exact .leaf inferInstance
    · exact .identifierOf
  · exact .failure

lemma primaryExpression : ReadsNode text g.primaryExpression := by
  refine .look fun cs => ?_
  split
  · exact .failure
  · refine .ite hg.parenthesized ?_
    refine .ite hg.arrayLiteral ?_
    refine .ite hg.objectLiteral ?_
    refine .ite (.leaf inferInstance) ?_
    refine .ite (.asOther (template hg.expression.single)) ?_
    refine .ite (.leaf inferInstance) ?_
    refine .ite (.leaf inferInstance) ?_
    refine .ite (.asOther hg.decoratedClass) ?_
    refine .ite (.look fun _ => hg.element) ?_
    exact .orElse (.leaf inferInstance) hg.wordOperand

omit hg in
instance : Stays closesInstantiation := by
  unfold closesInstantiation
  refine Stays.bind fun cs => ?_
  split <;> infer_instance

omit hg in
/-- A call extends the node that it begins with; `ts` are the nodes of its type arguments. -/
lemma callStep {s : Nat} (hs : TokenAt text s) {ts : Forest} {n : Node} {p : Parse Node}
    (hstart : n.span.start = s) (hpart : n.isPart = true) (hp : ReadsNode text p) :
    Ensures text (Behind text s (n :: ts)) (do
      let args ← p
      close s .call (n :: ts ++ [args])) (Begins text s) := by
  refine .read hp.reads fun args => ?_
  exact .closeCall hs hstart hpart rfl

lemma suffix {s : Nat} (hs : TokenAt text s) (n : Node) :
    Ensures text (Begins text s n) (g.suffix s n) (Begins text s) := by
  refine .pass fun cs => ?_
  split
  · refine .pass fun _ => ?_
    refine .pass fun _ => ?_
    refine .orElse (.pass fun _ => .closeMember hs) ?_
    refine .orElse (.pass fun _ => .closeMember hs) ?_
    refine .orElse (hg.indexStep hs n) (.begun fun hstart hpart => ?_)
    refine .read hg.typeArguments.optional fun ts => ?_
    exact callStep hs hstart hpart hg.arguments
  · refine .pass fun _ => ?_
    exact .orElse (.pass fun _ => .closeMember hs) (.pass fun _ => .closeMember hs)
  · exact hg.indexStep hs n
  · exact .begun fun hstart hpart => callStep hs hstart hpart hg.arguments
  · exact .begun fun hstart hpart =>
      callStep hs hstart hpart (.asOther (template hg.expression.single))
  · refine .pass fun _ => ?_
    refine .pass fun _ => ?_
    refine .pass fun _ => ?_
    refine .pass fun _ => ?_
    exact .begun fun _ _ => .closePlain hs rfl rfl
  · refine .begun fun hstart hpart => ?_
    refine .read hg.typeArguments fun ts => ?_
    refine .orElse (callStep hs hstart hpart hg.arguments) (.orElse ?_ ?_)
    · refine .skip fun _ => ?_
      refine .skip fun _ => ?_
      exact callStep hs hstart hpart (.asOther (template hg.expression.single))
    · refine .skip fun _ => ?_
      exact .closePlain hs rfl rfl
  · exact .failure

lemma operandExpression : ReadsNode text g.operandExpression :=
  .here fun _ hs => .first hg.primaryExpression fun first => .iterate (hg.suffix hs) first

/-! ### Operators -/

lemma prefixOperator : Reads text id g.prefixOperator := by
  refine .orElse ?_ (.orElse ?_ ?_)
  · exact fun _ => .skip fun _ => .result rfl
  · intro lo
    refine .skip fun w => ?_
    refine .skip fun _ => ?_
    refine .skip fun cs => ?_
    split
    · exact Ensures.failure.bind fun _ => .result rfl
    · exact .skip fun _ => .result rfl
  · exact fun _ => .skip fun _ => .last hg.typeArguments fun _ => rfl

omit hg in
/-- Without prefixes a node begins where they would. -/
lemma ensures_prefixes {s : Nat} {p : Parse Forest} {k : List Forest → Parse Node}
    {post : Node → Cursor → Prop} (hp : Reads text id p)
    (hnil : Ensures text (Opens s) (k []) post)
    (hcons : ∀ ns nss, Ensures text (Behind text s (ns :: nss).flatten) (k (ns :: nss)) post) :
    Ensures text (Opens s) (many p >>= k) post := by
  intro c hc hopens n e h
  obtain ⟨nss, d, hmany, hn⟩ := bind_eq_some_iff.1 h
  obtain ⟨hcd, hlaid⟩ := hp.manyForests s hc hopens.behind hmany
  cases nss with
  | nil =>
    obtain rfl := eq_of_many_eq_nil hmany
    exact hnil hc hopens hn
  | cons ns nss =>
    obtain ⟨hde, hpost⟩ := hcons ns nss (hc.trans hcd) hlaid hn
    exact ⟨hcd.trans hde, hpost⟩

lemma unaryExpression : ReadsNode text g.unaryExpression := by
  refine .here fun s hs => ensures_prefixes hg.prefixOperator ?_ fun ns nss => ?_
  · refine .first hg.operandExpression fun e => ?_
    refine .pass fun post => ?_
    split
    · exact .pure fun _ he => he
    · exact .begun fun _ _ => .closePlain hs rfl rfl
  · refine .read hg.operandExpression.reads fun e => ?_
    refine .skip fun post => ?_
    exact .closePlain hs rfl rfl

lemma binaryTail : Reads text id g.binaryTail := by
  refine .orElse ?_ (.orElse ?_ ?_)
  · intro lo
    refine .skip fun cs => ?_
    refine .skip fun _ => ?_
    refine .skip fun _ => ?_
    refine .skip fun _ => ?_
    exact .last hg.unaryExpression.single fun _ => rfl
  · exact fun _ => .skip fun _ => .last hg.unaryExpression.single fun _ => rfl
  · intro lo
    refine .skip fun _ => ?_
    refine .skip fun _ => ?_
    refine .skip fun _ => ?_
    exact .last (.orElse .nothing hg.type) fun _ => rfl

lemma binaryExpression : ReadsNode text g.binaryExpression := by
  refine .here fun s hs => ?_
  refine .first hg.unaryExpression fun first => .begun fun hstart hpart => ?_
  refine .read hg.binaryTail.manyForests fun others => ?_
  split
  · next hempty =>
    rw [List.isEmpty_iff.1 hempty]
    exact .yielded hstart hpart rfl
  · exact .closePlain hs rfl rfl

omit hg in
instance : Moves question := by
  unfold question
  refine Moves.bind fun cs => ?_
  split <;> infer_instance

lemma conditionalExpression : ReadsNode text g.conditionalExpression := by
  refine .here fun s hs => ?_
  refine .first hg.binaryExpression fun e => ?_
  refine .orElse (.begun fun _ _ => ?_) (.pure fun _ he => he)
  refine .skip fun _ => ?_
  refine .read hg.branch.reads fun a => ?_
  refine .skip fun _ => ?_
  refine .read hg.assignment.reads fun b => ?_
  exact .closePlain hs rfl rfl

/-! ### Assignments and arrow functions -/

lemma arrowFrom {s : Nat} (hs : TokenAt text s) (head : Forest) :
    Ensures text (Behind text s head) (g.arrowFrom s head) (Begins text s) := by
  refine .skip fun _ => .orElse ?_ ?_
  · refine .read hg.block fun body => ?_
    exact (Ensures.closePlain hs rfl rfl).bind fun f => .iterate (hg.suffix hs) f
  · refine .read hg.assignment.reads fun e => ?_
    exact .closePlain hs rfl rfl

lemma arrowWithParameters (resultType : Bool) :
    ReadsNode text (g.arrowWithParameters resultType) := by
  refine .here fun s hs => .opened ?_
  refine .skip fun _ => ?_
  refine .read hg.typeParameters.optional fun ts => ?_
  refine .skip fun _ => ?_
  refine .skip fun _ => ?_
  refine .skip fun follower => ?_
  refine .skip fun _ => ?_
  refine .read hg.parameters fun ps => ?_
  refine .read hg.typed fun r => ?_
  exact hg.arrowFrom hs _

lemma arrowOfName : ReadsNode text g.arrowOfName := by
  refine .here fun s hs => .opened ?_
  refine .skip fun _ => ?_
  refine .read reads_variableName fun x => ?_
  exact hg.arrowFrom hs _

omit hg in
instance : Stays isAssignedGroup := by
  unfold isAssignedGroup
  refine Stays.bind fun cs => ?_
  split
  · split
    · refine Stays.bind fun follower => ?_
      split <;> infer_instance
    · infer_instance
  · infer_instance

lemma patternAssignment : ReadsNode text g.patternAssignment := by
  refine .look fun _ => .look fun _ => .asOther fun lo => ?_
  refine .read hg.target fun t => ?_
  refine .skip fun _ => ?_
  refine .read hg.assignment.reads fun e => ?_
  exact .result rfl

lemma yieldExpression : ReadsNode text g.yieldExpression := by
  refine .asOther fun lo => .skip fun _ => .last (.optional fun lo => ?_) fun _ => rfl
  refine .skip fun _ => ?_
  refine .skip fun _ => ?_
  refine .skip fun _ => ?_
  exact .last hg.assignment.single fun _ => rfl

lemma simpleAssignment : ReadsNode text g.simpleAssignment := by
  refine .here fun s hs => ?_
  refine .first hg.conditionalExpression fun e => ?_
  refine .orElse (.begun fun _ _ => ?_) (.pure fun _ he => he)
  refine .skip fun _ => ?_
  refine .read hg.assignment.reads fun r => ?_
  exact .closePlain hs rfl rfl

lemma plainAssignment : ReadsNode text g.plainAssignment :=
  hg.yieldExpression.orElse (hg.patternAssignment.orElse hg.simpleAssignment)

lemma assignmentWith {annotatedArrow : Parse Node} (hannotated : ReadsNode text annotatedArrow) :
    ReadsNode text (g.assignmentWith annotatedArrow) := by
  have harrow := hg.arrowOfName.orElse ((hg.arrowWithParameters false).orElse hannotated)
  refine .look fun _ => .ite ?_ ?_
  · exact hg.plainAssignment.orElse harrow
  · exact harrow.orElse hg.plainAssignment

lemma assignmentExpression : ReadsNode text g.assignmentExpression :=
  hg.assignmentWith (hg.arrowWithParameters true)

lemma branchExpression : ReadsNode text g.branchExpression :=
  hg.assignmentWith (hg.arrowWithParameters true).seqLeft

omit hg in
/-- Without separators a node begins where the list of nodes would. -/
lemma ensures_listed {α : Type} {s : Nat} {sep : Parse α} [Moves sep] {p : Parse Node}
    {k : List Node → Parse Node} {post : Node → Cursor → Prop} (hp : ReadsNode text p)
    (hone : ∀ n, Ensures text (Begins text s n) (k [n]) post)
    (hmore : ∀ n m ns, Ensures text (Behind text s (n :: m :: ns)) (k (n :: m :: ns)) post) :
    Ensures text (Opens s) (sepBy1 sep p >>= k) post := by
  have hall : Ensures text (Opens s) (do
      let first ← p
      let others ← many (sep *> p)
      k (first :: others)) post := by
    refine .first hp fun first => .begun fun hstart hpart => ?_
    refine .read hp.reads.seqRight.many fun others => ?_
    rw [List.flatMap_singleton']
    cases others with
    | nil => exact (hone first).weaken fun c h => ⟨hstart, hpart, h⟩
    | cons n ns => exact hmore first n ns
  intro c hc hopens n d h
  refine hall hc hopens ?_
  rwa [sepBy1, bind_assoc] at h

lemma commaExpression : ReadsNode text g.commaExpression := by
  refine .here fun s hs => ensures_listed hg.assignment (fun n => ?_) fun n m ns => ?_
  · exact .pure fun _ hn => hn
  · exact .closePlain hs rfl rfl

end Tidy

end IdentityLint.Syntax.Grammar
